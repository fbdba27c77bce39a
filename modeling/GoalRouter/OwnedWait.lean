import GoalRouter.Locking
import GoalRouter.Library.AsyncTask

namespace GoalRouter
open Library
set_option autoImplicit true

/-- Where `wait_for_owned_task` stands between two of its readings of `owner.cancelling()`. -/
inductive WaitPoint where
  | entry
  | check
  | waiting (outer : Waiter Text Raised)
  /-- A `CancelledError` was raised at the wait; it may deliver a request to the owner. -/
  | handling (cancellation : Raised) (requested : Bool)
  | returned
  deriving DecidableEq

/-- The wait of an owner for a task it owns. -/
structure WaitState where
  point : WaitPoint
  owner : CancelState Text
  owned : Option (TaskOutcome Raised)
  observed : Nat
  cancellations : List Raised
  /-- Whether the owner was cancelled since `observed` was read. -/
  requested : Bool
  /-- The number of cancellations raised at the wait that delivered a request to the owner. -/
  delivered : Nat
  interruptions : List Interruption

namespace WaitState

/-- The call of `wait_for_owned_task`. -/
def start (owner : CancelState Text) (owned : Option (TaskOutcome Raised)) : WaitState :=
  ⟨.entry, owner, owned, 0, [], false, 0, []⟩

/-- Reading `owner.cancelling()`. -/
def read (s : WaitState) : WaitState :=
  { s with observed := s.owner.cancelling, requested := false }

def cancelledError (message : Option Text) : Raised :=
  ⟨⟨.cancelledError, message.getD []⟩, false, []⟩

def noteCoalesced (coalesced : Nat) (cancellation : Raised) : Raised :=
  if coalesced > 1 then
    cancellation.addNote (decimal (coalesced - 1 : Nat) ++
      text " additional cancellation request(s) were coalesced")
  else cancellation

/-- The owner executes up to its next wait, reading of its requests, or return. -/
def advance (s : WaitState) : Option WaitState :=
  match s.point with
  | .entry => some { s.read with point := .check }
  | .check =>
    match s.owned with
    | some _ => some { s with point := .returned }
    | none =>
      let wait : CancelState Text × Waiter Text Raised := s.owner.suspend
      some { s with owner := wait.1, point := .waiting wait.2 }
  | .waiting outer =>
    match s.owner.resume outer with
    | none => none
    | some (owner, .value) => some { s with owner, point := .check }
    | some (owner, .error _) => some { s with owner, point := .returned }
    | some (owner, .cancelled message requested) =>
      some { s with
        owner
        delivered := s.delivered + requested.toNat
        point := .handling (cancelledError message) requested }
  | .handling cancellation _ =>
    let current := s.owner.cancelling
    let interruptions := s.interruptions ++ [⟨cancellation, current⟩]
    if current = s.observed then some { s with point := .returned, interruptions }
    else
      some { s.read with
        point := .check
        interruptions
        cancellations := s.cancellations ++ [noteCoalesced (current - s.observed) cancellation] }
  | .returned => none

/-- `owner.cancel(message)`. -/
def request (message : Option Text) (s : WaitState) : WaitState :=
  match s.point with
  | .waiting outer =>
    { s with
      owner := (s.owner.cancelWaiting message outer).1
      point := .waiting (s.owner.cancelWaiting message outer).2
      requested := true }
  | _ => { s with owner := s.owner.cancel message, requested := true }

end WaitState

/-- What happens around the wait. -/
inductive WaitMove where
  | request (message : Option Text)
  /-- The owned task ends; it runs only while the owner is suspended. -/
  | finish (outcome : TaskOutcome Raised)
  /-- The callback of the finished task settles the future of the shield. -/
  | forward
  | owner
  deriving DecidableEq

namespace WaitState

def step (s : WaitState) : WaitMove → Option WaitState
  | .request message => if s.point = .returned then none else some (s.request message)
  | .finish outcome =>
    match s.point, s.owned with
    | .waiting _, none => some { s with owned := some outcome }
    | _, _ => none
  | .forward =>
    match s.point, s.owned with
    | .waiting outer, some outcome => some { s with point := .waiting (outer.forward outcome) }
    | _, _ => none
  | .owner => s.advance

def run (s : WaitState) : List WaitMove → Option WaitState
  | [] => some s
  | move :: moves => (s.step move).bind fun s' => s'.run moves

/-- What a returned wait promises: the task is finished, and a delivered request is reported. -/
def Honoured (s : WaitState) : Prop :=
  s.owned.isSome = true ∧ (0 < s.delivered → s.cancellations ≠ [])

/-- A cancellation that was raised for the owner, but no request came since the last reading of its
counter, and the task is unfinished or this is the first one raised. -/
def Stale (s : WaitState) : Prop :=
  match s.point with
  | .handling _ true => s.requested = false ∧ (s.owned = none ∨ s.delivered = 1)
  | _ => False

/-- The owner never executes with a stale cancellation. -/
def NeverStale (s : WaitState) : List WaitMove → Prop
  | [] => True
  | move :: moves =>
    (move = .owner → ¬s.Stale) ∧ ∀ s', s.step move = some s' → s'.NeverStale moves

/-- The last reading of the counter misses exactly the requests made since. -/
def Counted (s : WaitState) : Prop :=
  (s.requested = false → s.observed = s.owner.cancelling) ∧
    (s.requested = true → s.observed < s.owner.cancelling)

/-- What holds at each point of the wait. A cancellation that delivers no request comes from the
owned task, so the task is finished then. -/
def Sound (s : WaitState) : Prop :=
  match s.point with
  | .entry => s.cancellations = [] ∧ s.delivered = 0
  | .check => s.Counted ∧ (s.cancellations = [] → s.delivered = 0) ∧
      (s.delivered = 0 → s.cancellations = [] ∨ s.owned.isSome = true)
  | .waiting outer => s.Counted ∧ (s.cancellations = [] ↔ s.delivered = 0) ∧
      (outer.SettledOtherwise → s.owned.isSome = true)
  | .handling _ requested => s.Counted ∧ (s.cancellations = [] ↔ s.delivered = requested.toNat) ∧
      (requested = true → 0 < s.delivered) ∧ (requested = false → s.owned.isSome = true)
  | .returned => True

variable {s s' : WaitState} {owner : CancelState Text} {owned : Option (TaskOutcome Raised)}

theorem sound_start : (start owner owned).Sound := ⟨rfl, rfl⟩

theorem counted_read (s : WaitState) : s.read.Counted :=
  ⟨fun _ => rfl, fun h => Bool.noConfusion h⟩

theorem Counted.request {n : Nat} (h : s.Counted) (hn : n = s.owner.cancelling + 1) :
    s.observed < n := by
  cases hr : s.requested with
  | false =>
    have := h.1 hr
    omega
  | true =>
    have := h.2 hr
    omega

/-- A request keeps the invariant: it is counted, and it settles no future otherwise. -/
theorem Sound.request (h : s.Sound) (message : Option Text) : (s.request message).Sound := by
  obtain ⟨point, owner, owned, observed, cancellations, requested, delivered, interruptions⟩ := s
  cases point with
  | entry => exact h
  | check =>
    obtain ⟨hc, hrest⟩ := h
    exact ⟨⟨fun h => Bool.noConfusion h, fun _ => hc.request rfl⟩, hrest⟩
  | waiting outer =>
    obtain ⟨hc, hd, hs⟩ := h
    refine ⟨⟨fun h => Bool.noConfusion h, fun _ => hc.request ?_⟩, hd, fun hs' => hs ?_⟩
    · exact CancelState.cancelWaiting_cancelling
    · exact CancelState.settledOtherwise_of_cancelWaiting hs'
  | handling cancellation req =>
    obtain ⟨hc, hrest⟩ := h
    exact ⟨⟨fun h => Bool.noConfusion h, fun _ => hc.request rfl⟩, hrest⟩
  | returned => trivial

/-- What one step keeps: the invariant, and that the wait returns from a stale state exactly if it
returns dishonestly. -/
structure Keeps (s s' : WaitState) : Prop where
  sound : s'.Sound
  returned_of_stale : s.Stale → s'.point = .returned
  honoured_iff : s'.point = .returned → (s'.Honoured ↔ ¬s.Stale)

theorem Keeps.of_not_returned (h : s'.Sound) (hs : ¬s.Stale) (hp : s'.point ≠ .returned) :
    s.Keeps s' :=
  ⟨h, fun h => absurd h hs, fun h => absurd h hp⟩

theorem not_stale_of_point (h : ∀ cancellation, s.point ≠ .handling cancellation true) :
    ¬s.Stale := by
  intro hs
  rw [Stale] at hs
  split at hs
  · exact h _ ‹_›
  · exact hs

theorem Sound.keeps_entry (h : s.Sound) (hp : s.point = .entry) :
    s.Keeps { s.read with point := .check } := by
  rw [Sound, hp] at h
  obtain ⟨hc, hd⟩ := h
  refine .of_not_returned ⟨counted_read s, fun _ => hd, fun _ => .inl hc⟩ ?_ WaitPoint.noConfusion
  exact not_stale_of_point fun c => by rw [hp]; exact WaitPoint.noConfusion

theorem Sound.keeps_check (h : s.Sound) (hp : s.point = .check) (ha : s.advance = some s') :
    s.Keeps s' := by
  have hns : ¬s.Stale := not_stale_of_point fun c => by rw [hp]; exact WaitPoint.noConfusion
  rw [Sound, hp] at h
  obtain ⟨hc, hd, ho⟩ := h
  rw [WaitState.advance, hp] at ha
  cases hw : s.owned with
  | some outcome =>
    rw [hw] at ha
    cases ha
    refine ⟨trivial, fun h => absurd h hns, fun _ => iff_of_true ⟨rfl, fun hpos hnil => ?_⟩ hns⟩
    exact absurd (hd hnil) (Nat.ne_of_gt hpos)
  | none =>
    rw [hw] at ha ho
    cases ha
    refine .of_not_returned ⟨?_, ⟨hd, fun h0 => ?_⟩, fun hs => ?_⟩ hns WaitPoint.noConfusion
    · rw [Counted, CancelState.suspend_cancelling]
      exact hc
    · exact (ho h0).resolve_right Bool.false_ne_true
    · exact absurd hs CancelState.not_settledOtherwise_suspend

/-- Waking up: the task is finished unless what woke the owner delivers a request. -/
theorem Sound.keeps_waiting {outer : Waiter Text Raised} (h : s.Sound)
    (hp : s.point = .waiting outer) (ha : s.advance = some s') : s.Keeps s' := by
  have hns : ¬s.Stale := not_stale_of_point fun c => by rw [hp]; exact WaitPoint.noConfusion
  rw [Sound, hp] at h
  obtain ⟨hc, hd, hs⟩ := h
  rw [WaitState.advance, hp] at ha
  dsimp only at ha
  cases hr : s.owner.resume outer with
  | none =>
    rw [hr] at ha
    exact nomatch ha
  | some woken =>
    obtain ⟨owner, found⟩ := woken
    rw [hr] at ha
    have hcount : owner.cancelling = s.owner.cancelling := CancelState.resume_cancelling hr
    have hc' : { s with owner := owner }.Counted := by
      rw [Counted, hcount]
      exact hc
    have hdone : (∀ message, found ≠ .cancelled message true) → s.owned.isSome = true := by
      intro hne
      obtain ⟨message, he⟩ | hset := CancelState.resume_cases hr
      · exact absurd he (hne message)
      · exact hs hset
    cases found with
    | value =>
      cases ha
      have hfin := hdone fun message h => nomatch h
      exact .of_not_returned ⟨hc', hd.1, fun _ => .inr hfin⟩ hns WaitPoint.noConfusion
    | error error =>
      cases ha
      have hfin := hdone fun message h => nomatch h
      refine ⟨trivial, fun h => absurd h hns, fun _ => iff_of_true ⟨hfin, fun hpos hnil => ?_⟩ hns⟩
      exact absurd (hd.1 hnil) (Nat.ne_of_gt hpos)
    | cancelled message requested =>
      cases ha
      refine .of_not_returned ⟨hc', ?_, ?_, ?_⟩ hns WaitPoint.noConfusion
      · show s.cancellations = [] ↔ s.delivered + requested.toNat = requested.toNat
        rw [hd]
        omega
      · intro hreq
        subst hreq
        exact Nat.succ_pos s.delivered
      · intro hreq
        subst hreq
        exact hdone fun message h => by cases h

/-- Handling a cancellation: the wait goes on if a request came since the last reading. -/
theorem Sound.keeps_handling {cancellation : Raised} {requested : Bool} (h : s.Sound)
    (hp : s.point = .handling cancellation requested) (ha : s.advance = some s') : s.Keeps s' := by
  rw [Sound, hp] at h
  obtain ⟨hc, hd, hpos, ho⟩ := h
  rw [WaitState.advance, hp] at ha
  dsimp only at ha
  by_cases hr : s.requested = true
  · have hns : ¬s.Stale := by
      intro hs
      rw [Stale, hp] at hs
      cases requested with
      | true => exact Bool.noConfusion (hr.symm.trans hs.1)
      | false => exact hs
    rw [if_neg (Nat.ne_of_gt (hc.2 hr))] at ha
    cases ha
    refine .of_not_returned ⟨counted_read s, fun hnil => ?_, fun h0 => ?_⟩ hns WaitPoint.noConfusion
    · exact absurd (List.append_eq_nil_iff.1 hnil).2 (List.cons_ne_nil _ _)
    · cases requested with
      | true => exact absurd h0 (Nat.ne_of_gt (hpos rfl))
      | false => exact .inr (ho rfl)
  · have hr : s.requested = false := Bool.eq_false_iff.2 hr
    rw [if_pos (hc.1 hr).symm] at ha
    cases ha
    refine ⟨trivial, fun _ => rfl, fun _ => ?_⟩
    rw [Stale, hp]
    cases requested with
    | true =>
      have := hpos rfl
      have hd : s.cancellations = [] ↔ s.delivered = 1 := hd
      constructor
      · rintro ⟨hfin, hrep⟩ ⟨-, hnone | hone⟩
        · rw [Option.isSome_iff_ne_none] at hfin
          exact hfin hnone
        · exact hrep this (hd.2 hone)
      · intro hns
        refine ⟨Option.isSome_iff_ne_none.2 fun hnone => hns ⟨hr, .inl hnone⟩, fun _ hnil => ?_⟩
        exact hns ⟨hr, .inr (hd.1 hnil)⟩
    | false =>
      have hd : s.cancellations = [] ↔ s.delivered = 0 := hd
      refine iff_of_true ⟨ho rfl, fun hpos hnil => ?_⟩ id
      exact absurd (hd.1 hnil) (Nat.ne_of_gt hpos)

theorem Sound.advance (h : s.Sound) (ha : s.advance = some s') : s.Keeps s' := by
  cases hp : s.point with
  | entry =>
    rw [WaitState.advance, hp] at ha
    cases ha
    exact h.keeps_entry hp
  | check => exact h.keeps_check hp ha
  | waiting outer => exact h.keeps_waiting hp ha
  | handling cancellation requested => exact h.keeps_handling hp ha
  | returned =>
    rw [WaitState.advance, hp] at ha
    exact nomatch ha

theorem Sound.step {move : WaitMove} (h : s.Sound) (hs : s.step move = some s') :
    s'.Sound ∧ (move = .owner → s.Stale → s'.point = .returned) ∧
      (s'.point = .returned → move = .owner ∧ (s'.Honoured ↔ ¬s.Stale)) := by
  cases move with
  | request message =>
    rw [WaitState.step] at hs
    split at hs
    · exact nomatch hs
    · cases hs
      refine ⟨h.request message, fun hm => WaitMove.noConfusion hm, fun hp => ?_⟩
      rw [WaitState.request] at hp
      split at hp
      · exact WaitPoint.noConfusion hp
      · contradiction
  | finish outcome =>
    rw [WaitState.step] at hs
    split at hs
    · rename_i outer hp hn
      cases hs
      rw [Sound, hp] at h
      refine ⟨?_, fun hm => WaitMove.noConfusion hm, fun hr => ?_⟩
      · rw [Sound]
        dsimp only
        rw [hp]
        exact ⟨h.1, h.2.1, fun _ => rfl⟩
      · exact WaitPoint.noConfusion (hp.symm.trans hr)
    · exact nomatch hs
  | forward =>
    rw [WaitState.step] at hs
    split at hs
    · rename_i outer outcome hp hn
      cases hs
      rw [Sound, hp] at h
      refine ⟨⟨h.1, h.2.1, fun _ => ?_⟩, fun hm => WaitMove.noConfusion hm, fun hr => ?_⟩
      · exact Option.isSome_of_eq_some hn
      · exact WaitPoint.noConfusion hr
    · exact nomatch hs
  | owner =>
    have hk := h.advance hs
    exact ⟨hk.sound, fun _ => hk.returned_of_stale, fun hp => ⟨rfl, hk.honoured_iff hp⟩⟩

theorem step_returned (hp : s.point = .returned) (move : WaitMove) : s.step move = none := by
  cases move with
  | request message => rw [step, if_pos hp]
  | finish outcome => rw [step, hp]
  | forward => rw [step, hp]
  | owner => rw [step, advance, hp]

theorem eq_of_run_returned {moves : List WaitMove} (hp : s.point = .returned)
    (h : s.run moves = some s') : s' = s ∧ s.NeverStale moves := by
  cases moves with
  | nil =>
    cases h
    exact ⟨rfl, trivial⟩
  | cons move moves =>
    rw [run, step_returned hp] at h
    exact nomatch h

theorem Sound.run_honoured_iff {moves : List WaitMove} (h : s.Sound) (hn : s.point ≠ .returned)
    (hr : s.run moves = some s') :
    (s'.point = .returned → s'.Honoured) ↔ s.NeverStale moves := by
  induction moves generalizing s with
  | nil =>
    cases hr
    exact iff_of_true (fun hp => absurd hp hn) trivial
  | cons move moves ih =>
    rw [run] at hr
    obtain ⟨t, ht, hr⟩ := Option.bind_eq_some_iff.1 hr
    obtain ⟨hsound, hstale, hret⟩ := h.step ht
    have hnext :
        s.NeverStale (move :: moves) ↔ (move = .owner → ¬s.Stale) ∧ t.NeverStale moves := by
      rw [NeverStale, ht]
      exact and_congr_right fun _ => ⟨fun h => h t rfl, fun h t' ht' => Option.some.inj ht' ▸ h⟩
    rw [hnext]
    by_cases hp : t.point = .returned
    · obtain ⟨rfl, hnever⟩ := eq_of_run_returned hp hr
      obtain ⟨hm, hiff⟩ := hret hp
      constructor
      · exact fun hon => ⟨fun _ => hiff.1 (hon hp), hnever⟩
      · exact fun hns _ => hiff.2 (hns.1 hm)
    · rw [ih hsound hp hr]
      exact ⟨fun hns => ⟨fun hm hs => hp (hstale hm hs), hns⟩, And.right⟩

/-- The wait keeps its promise in a run exactly if the owner never executes with a stale
cancellation. -/
theorem run_honoured_iff {moves : List WaitMove} (h : (start owner owned).run moves = some s) :
    (s.point = .returned → s.Honoured) ↔ (start owner owned).NeverStale moves :=
  sound_start.run_honoured_iff WaitPoint.noConfusion h

/-- What the loop has recorded so far stays as it is. -/
structure SameRecord (s s' : WaitState) : Prop where
  begun : s'.point ≠ .entry
  interruptions : s'.interruptions = s.interruptions
  cancellations : s'.cancellations = s.cancellations
  observed : s'.observed = s.observed

/-- What the loop records between two states is what it makes of the interruptions in between. -/
def Records (s s' : WaitState) : Prop :=
  ∃ more, s'.interruptions = s.interruptions ++ more ∧
    ∀ rest, (s'.point = .returned → rest = []) →
      s.cancellations ++ waitLoop s.observed (more ++ rest) =
        s'.cancellations ++ waitLoop s'.observed rest

theorem SameRecord.records (h : s.SameRecord s') : s.Records s' :=
  ⟨[], by rw [h.interruptions, List.append_nil], fun rest _ => by
    rw [h.cancellations, h.observed, List.nil_append]⟩

theorem sameRecord_request (hp : s.point ≠ .entry) (message : Option Text) :
    s.SameRecord (s.request message) := by
  rw [request]
  split
  · exact ⟨WaitPoint.noConfusion, rfl, rfl, rfl⟩
  · exact ⟨hp, rfl, rfl, rfl⟩

theorem records_advance (hp : s.point ≠ .entry) (h : s.advance = some s') :
    s'.point ≠ .entry ∧ s.Records s' := by
  suffices s.SameRecord s' ∨ (s'.point ≠ .entry ∧ s.Records s') by
    obtain hsame | h := this
    · exact ⟨hsame.begun, hsame.records⟩
    · exact h
  rw [advance] at h
  split at h
  · contradiction
  · split at h
    · cases h
      exact .inl ⟨WaitPoint.noConfusion, rfl, rfl, rfl⟩
    · cases h
      exact .inl ⟨WaitPoint.noConfusion, rfl, rfl, rfl⟩
  · split at h
    · exact nomatch h
    · cases h
      exact .inl ⟨WaitPoint.noConfusion, rfl, rfl, rfl⟩
    · cases h
      exact .inl ⟨WaitPoint.noConfusion, rfl, rfl, rfl⟩
    · cases h
      exact .inl ⟨WaitPoint.noConfusion, rfl, rfl, rfl⟩
  · rename_i cancellation requested hq
    dsimp only at h
    split at h
    · rename_i hc
      cases h
      refine .inr ⟨WaitPoint.noConfusion, [⟨cancellation, s.owner.cancelling⟩], rfl,
        fun rest hr => ?_⟩
      have hstop : waitLoop s.observed [⟨cancellation, s.owner.cancelling⟩] = [] := by
        rw [waitLoop, if_pos hc]
      rw [hr rfl, List.append_nil, hstop, waitLoop]
    · rename_i hc
      cases h
      refine .inr ⟨WaitPoint.noConfusion, [⟨cancellation, s.owner.cancelling⟩], rfl,
        fun rest _ => ?_⟩
      rw [List.singleton_append, waitLoop, if_neg hc, List.append_assoc]
      rfl
  · exact nomatch h

theorem records_step {move : WaitMove} (hp : s.point ≠ .entry) (h : s.step move = some s') :
    s'.point ≠ .entry ∧ s.Records s' := by
  cases move with
  | request message =>
    rw [step] at h
    split at h
    · exact nomatch h
    · cases h
      have hsame := sameRecord_request hp message
      exact ⟨hsame.begun, hsame.records⟩
  | finish outcome =>
    rw [step] at h
    split at h
    · cases h
      have hsame : s.SameRecord { s with owned := some outcome } := ⟨hp, rfl, rfl, rfl⟩
      exact ⟨hp, hsame.records⟩
    · exact nomatch h
  | forward =>
    rw [step] at h
    split at h
    · rename_i outer outcome _ _
      cases h
      have hsame : s.SameRecord { s with point := .waiting (outer.forward outcome) } :=
        ⟨WaitPoint.noConfusion, rfl, rfl, rfl⟩
      exact ⟨hsame.begun, hsame.records⟩
    · exact nomatch h
  | owner => exact records_advance hp h

theorem run_records {moves : List WaitMove} (hp : s.point ≠ .entry) (h : s.run moves = some s') :
    ∃ more, s'.interruptions = s.interruptions ++ more ∧
      s'.cancellations = s.cancellations ++ waitLoop s.observed more := by
  induction moves generalizing s with
  | nil =>
    cases h
    exact ⟨[], (List.append_nil _).symm, (List.append_nil _).symm⟩
  | cons move moves ih =>
    rw [run] at h
    obtain ⟨t, ht, hrun⟩ := Option.bind_eq_some_iff.1 h
    obtain ⟨hp', more, hi, hc⟩ := records_step hp ht
    obtain ⟨rest, hi', hc'⟩ := ih hp' hrun
    refine ⟨more ++ rest, by rw [hi', hi, List.append_assoc], ?_⟩
    rw [hc', hc rest]
    intro hret
    obtain ⟨rfl, -⟩ := eq_of_run_returned hret hrun
    exact List.append_cancel_left (hi'.symm.trans (List.append_nil _).symm)

theorem run_waitLoop {moves : List WaitMove} (h : (start owner owned).run moves = some s) :
    ∃ observed, s.cancellations = waitLoop observed s.interruptions := by
  generalize hs : start owner owned = s₀ at h
  have hempty : s₀.point = .entry ∧ s₀.interruptions = [] ∧ s₀.cancellations = [] := by
    subst hs
    exact ⟨rfl, rfl, rfl⟩
  clear hs
  induction moves generalizing s₀ with
  | nil =>
    cases h
    exact ⟨0, by rw [hempty.2.1, hempty.2.2, waitLoop]⟩
  | cons move moves ih =>
    rw [run] at h
    obtain ⟨t, ht, hrun⟩ := Option.bind_eq_some_iff.1 h
    cases move with
    | request message =>
      rw [step, hempty.1, if_neg WaitPoint.noConfusion, request, hempty.1] at ht
      cases ht
      exact ih _ hrun ⟨rfl, hempty.2⟩
    | finish outcome =>
      rw [step, hempty.1] at ht
      exact nomatch ht
    | forward =>
      rw [step, hempty.1] at ht
      exact nomatch ht
    | owner =>
      rw [step, advance, hempty.1] at ht
      cases ht
      obtain ⟨more, hi, hc⟩ := run_records WaitPoint.noConfusion hrun
      refine ⟨s₀.owner.cancelling, ?_⟩
      rw [hc, hi]
      show s₀.cancellations ++ _ = waitLoop _ (s₀.interruptions ++ more)
      rw [hempty.2.1, hempty.2.2]
      rfl

end WaitState

theorem wait_honoured_iff {owner : CancelState Text} {owned : Option (TaskOutcome Raised)}
    {moves : List WaitMove} {s : WaitState} (h : (WaitState.start owner owned).run moves = some s) :
    (s.point = .returned → s.owned.isSome = true ∧ (0 < s.delivered → s.cancellations ≠ [])) ↔
      (WaitState.start owner owned).NeverStale moves :=
  WaitState.run_honoured_iff h

/-- An owner that nobody has cancelled calls for a task that is running. -/
def sampleWait : WaitState := .start ⟨0, false, none⟩ none

/-- A request while the owner waits, then the end of the task. -/
def cancelledWait : List WaitMove :=
  [.owner, .owner, .request none, .owner, .owner, .owner, .finish .returned, .forward, .owner,
    .owner]

/-- The owner is cancelled while it executes, just before it begins to wait. -/
def earlyCancelledWait : List WaitMove := [.request none, .owner, .owner, .owner, .owner]

theorem cancelled_wait_honoured : ∃ s, sampleWait.run cancelledWait = some s ∧
    s.point = .returned ∧ s.cancellations.length = 1 ∧ sampleWait.NeverStale cancelledWait := by
  have hrun : (sampleWait.run cancelledWait).map
      (fun s => (s.point, s.owned, s.cancellations.length)) =
        some (.returned, some .returned, 1) := by
    decide
  obtain ⟨s, hs, he⟩ := Option.map_eq_some_iff.1 hrun
  obtain ⟨hp, ho, hc⟩ :
      s.point = .returned ∧ s.owned = some .returned ∧ s.cancellations.length = 1 := by
    simpa using he
  refine ⟨s, hs, hp, hc, (wait_honoured_iff hs).1 fun _ => ⟨by rw [ho]; rfl, fun _ hnil => ?_⟩⟩
  rw [hnil] at hc
  exact nomatch hc

/-- The request is counted before the first reading, so the loop takes it for the end of the task:
the wait returns while the task is running, and reports nothing. -/
theorem early_cancelled_wait_abandons : ¬∀ (owner : CancelState Text)
    (owned : Option (TaskOutcome Raised)) (moves : List WaitMove) (s : WaitState),
    (WaitState.start owner owned).run moves = some s → s.point = .returned →
      s.owned.isSome = true ∧ (0 < s.delivered → s.cancellations ≠ []) := by
  intro h
  have hrun : (sampleWait.run earlyCancelledWait).map
      (fun s => (s.point, s.owned, s.cancellations)) = some (.returned, none, []) := by
    decide
  obtain ⟨s, hs, he⟩ := Option.map_eq_some_iff.1 hrun
  obtain ⟨hp, ho, hc⟩ : s.point = .returned ∧ s.owned = none ∧ s.cancellations = [] := by
    simpa using he
  have hfin := (h ⟨0, false, none⟩ none earlyCancelledWait s hs hp).1
  rw [ho] at hfin
  exact Bool.noConfusion hfin

end GoalRouter
