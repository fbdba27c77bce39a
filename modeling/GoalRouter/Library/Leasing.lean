import GoalRouter.Library.Program
import Mathlib.Data.List.Nodup
import Mathlib.Logic.Function.Basic

namespace Library
set_option autoImplicit true

/-- What a call is for: to take a lease, to give it back, to write or read what is shared under it,
or something that has nothing to do with either. -/
inductive Use where
  | take | give | write | look | plain
  deriving DecidableEq

/-- Where a process stands with the lease. -/
inductive Standing where
  /-- It works without the lease. -/
  | apart
  /-- It has not asked for the lease yet. -/
  | seeking
  | holding
  /-- It was refused the lease or gave it back, and makes no more calls. -/
  | through
  /-- It made a call that it must not make. -/
  | broken
  deriving DecidableEq

def Standing.after : Standing → Use → Bool → Standing
  | .apart, .look, _ | .apart, .plain, _ => .apart
  | .seeking, .plain, _ => .seeking
  | .seeking, .take, true => .holding
  | .seeking, .take, false => .through
  | .holding, .write, _ | .holding, .look, _ | .holding, .plain, _ => .holding
  | .holding, .give, _ => .through
  | _, _, _ => .broken

/-- The moves that break no rule. -/
inductive Standing.Goes : Standing → Use → Bool → Standing → Prop where
  | apart (hu : u = .look ∨ u = .plain) : Goes .apart u b .apart
  | seeking : Goes .seeking .plain b .seeking
  | granted : Goes .seeking .take true .holding
  | refused : Goes .seeking .take false .through
  | holding (ht : u ≠ .take) (hg : u ≠ .give) : Goes .holding u b .holding
  | returned : Goes .holding .give b .through

theorem Standing.goes {x : Standing} (h : x.after u b ≠ .broken) : x.Goes u b (x.after u b) := by
  cases x with
  | apart =>
    cases u with
    | look => exact .apart (.inl rfl)
    | plain => exact .apart (.inr rfl)
    | take | give | write => exact absurd rfl h
  | seeking =>
    cases u with
    | plain => exact .seeking
    | take =>
      cases b with
      | true => exact .granted
      | false => exact .refused
    | give | write | look => exact absurd rfl h
  | holding =>
    cases u with
    | write | look | plain => exact .holding (by decide) (by decide)
    | give => exact .returned
    | take => exact absurd rfl h
  | through | broken => exact absurd rfl h

/-- The lease: who holds it, and who was granted it so far, the last first. -/
structure Lease where
  holder : Option Nat
  tenures : List Nat

namespace Lease

/-- The lease after a process gave up what it holds of it. -/
def drop (l : Lease) (i : Nat) : Lease :=
  if l.holder = some i then { l with holder := none } else l

/-- What the answer to a call of process `i` does to the lease. -/
inductive Passes (i : Nat) : Use → Bool → Lease → Lease → Prop where
  | granted : Passes i .take true ⟨none, ids⟩ ⟨some i, i :: ids⟩
  | refused : Passes i .take false l l
  /-- What was taken could neither be used nor be let go. -/
  | stuck : Passes i .take false ⟨none, ids⟩ ⟨some i, ids⟩
  | given : Passes i .give b l (l.drop i)
  | kept : Passes i .give false l l
  | other (ht : u ≠ .take) (hg : u ≠ .give) : Passes i u b l l

theorem drop_tenures (l : Lease) (i : Nat) : (l.drop i).tenures = l.tenures := by
  rw [drop]
  split <;> rfl

theorem drop_holder {l : Lease} (h : l.holder = some j) (hj : j ≠ i) :
    (l.drop i).holder = some j := by
  rw [drop, if_neg fun hi => hj (Option.some.inj (h.symm.trans hi))]
  exact h

theorem Passes.tenures_eq (h : Passes i u b l l') :
    l'.tenures = l.tenures ∨ u = .take ∧ b = true ∧ l'.tenures = i :: l.tenures := by
  cases h with
  | granted => exact .inr ⟨rfl, rfl, rfl⟩
  | given => exact .inl (l.drop_tenures i)
  | refused | stuck | kept | other => exact .inl rfl

end Lease

variable {C E α S Ev : Type} {V : C → Type}

/-- A process: how it began, what is left of its program while it lives, and its log so far, the
last first. -/
structure Process (V : C → Type) (E α Ev : Type) where
  start : List Ev
  program : Prog V E α
  left : Option (Prog V E α)
  log : List Ev

/-- Processes that share a state under a lease, and the writes that go on although the process that
called for them does not wait for them any more. -/
structure Shared (V : C → Type) (E α S Ev : Type) where
  state : S
  processes : Nat → Option (Process V E α Ev)
  lease : Lease
  late : List C

namespace Shared

def put (y : Shared V E α S Ev) (i : Nat) (p : Process V E α Ev) : Shared V E α S Ev :=
  { y with processes := Function.update y.processes i (some p) }

/-- The logs of the processes that were granted the lease, the last first. -/
def history (processes : Nat → Option (Process V E α Ev)) (ids : List Nat) : List Ev :=
  ids.flatMap fun i => ((processes i).map Process.log).getD []

end Shared

/-- How calls are answered, what they are for, and how a process may begin. -/
structure Sharing (V : C → Type) (E α S Ev : Type) where
  next : Prog.Answers V E (S × List Ev)
  use : C → Use
  begins : List Ev → Prog V E α → Prop

namespace Sharing

/-- One step of the system: a process begins, dies or is answered; a write outlives the wait for
it; such a write takes effect. -/
inductive Step (R : Sharing V E α S Ev) : Shared V E α S Ev → Shared V E α S Ev → Prop where
  | begins (hi : y.processes i = none) (hb : R.begins start p) :
      Step R y (y.put i ⟨start, p, some p, start⟩)
  | answered (hi : y.processes i = some p) (hl : p.left = some (.call c k))
      (hn : R.next (y.state, p.log) c r (s, log))
      (hp : Lease.Passes i (R.use c) r.isOk y.lease lease) :
      Step R y { y.put i { p with left := some (k r), log } with state := s, lease }
  | dies (hi : y.processes i = some p) :
      Step R y { y.put i { p with left := none } with lease := y.lease.drop i }
  | outlived (hi : y.processes i = some p) (hl : p.left = some (.call c k))
      (hu : R.use c = .write) (hn : R.next (y.state, p.log) c (.error e) (y.state, log)) :
      Step R y { y.put i { p with left := some (k (.error e)), log } with late := c :: y.late }
  | lands (hc : c ∈ y.late) (hn : R.next (y.state, log) c r (s, log')) :
      Step R y { y with state := s }

/-- The systems that come from a state that no process has shared yet. -/
inductive Reached (R : Sharing V E α S Ev) (s₀ : S) : Shared V E α S Ev → Prop where
  | initial : Reached R s₀ ⟨s₀, fun _ => none, ⟨none, []⟩, []⟩
  | step (h : Reached R s₀ y) (hs : Step R y y') : Reached R s₀ y'

/-- How an answer that can be given changes the standing of a process. -/
def moves (R : Sharing V E α S Ev) (can : (c : C) → Except E (V c) → Prop) :
    Prog.Answers V E Standing :=
  fun x c r x' => can c r ∧ x' = x.after (R.use c) r.isOk

/-- From the standing `x` a program keeps the rules, and ends in a standing with `F`. -/
abbrev Obeys (R : Sharing V E α S Ev) (can : (c : C) → Except E (V c) → Prop)
    (F : Standing → Prop) (p : Prog V E β) (x : Standing) : Prop :=
  p.Safe (R.moves can) (fun x => x ≠ .broken) (fun _ => F) (fun _ => F) x

/-- What makes the rules enforceable: processes keep them, and only reads and writes depend on
what is shared. -/
structure Lawful (R : Sharing V E α S Ev) (can : (c : C) → Except E (V c) → Prop) : Prop where
  can_of_next : R.next w c r w' → can c r
  answerable : ∀ c, ∃ r, can c r
  begins : R.begins start p →
    R.Obeys can (fun _ => True) p .apart ∨ R.Obeys can (fun _ => True) p .seeking
  older : ∀ events, R.next (s, log) c r (s', log') →
    R.next (s, log ++ events) c r (s', log' ++ events)
  look : R.use c = .look → R.next (s, log) c r (s', log') → s' = s
  independent : R.use c = .plain ∨ R.use c = .take → R.next (s, log) c r (s', log') →
    s' = s ∧ ∀ t, R.next (t, log) c r (t, log')

/-- The processes, the last first, bring the state about one after the other: each begins in the
state and with the log that those before it left. -/
inductive Serial (R : Sharing V E α S Ev) (processes : Nat → Option (Process V E α Ev)) (s₀ : S) :
    List Nat → S → Prop where
  | nil : Serial R processes s₀ [] s₀
  | cons (h : Serial R processes s₀ ids s) (hi : processes i = some p)
      (hs : Prog.Steps R.next p.program (s, p.start ++ Shared.history processes ids) q
        (s', p.log ++ Shared.history processes ids))
      (hl : ∀ p', p.left = some p' → p' = q) : Serial R processes s₀ (i :: ids) s'

end Sharing

variable {R : Sharing V E α S Ev} {can : (c : C) → Except E (V c) → Prop} {s₀ : S}
  {y y' : Shared V E α S Ev}

namespace Shared

variable {i j : Nat} {p : Process V E α Ev}

theorem put_self (y : Shared V E α S Ev) (i : Nat) (p : Process V E α Ev) :
    (y.put i p).processes i = some p :=
  Function.update_self ..

theorem put_other (y : Shared V E α S Ev) (h : j ≠ i) (p : Process V E α Ev) :
    (y.put i p).processes j = y.processes j :=
  Function.update_of_ne h ..

theorem history_congr {processes processes' : Nat → Option (Process V E α Ev)}
    (h : ∀ j ∈ ids, processes j = processes' j) :
    history processes ids = history processes' ids := by
  induction ids with
  | nil => rfl
  | cons i ids ih =>
    obtain ⟨hi, hids⟩ := List.forall_mem_cons.1 h
    rw [history, history, List.flatMap_cons, List.flatMap_cons, hi]
    exact congrArg (_ ++ ·) (ih hids)

theorem history_cons {processes : Nat → Option (Process V E α Ev)} (h : processes i = some p)
    (ids : List Nat) : history processes (i :: ids) = p.log ++ history processes ids := by
  rw [history, List.flatMap_cons, h]
  rfl

end Shared

namespace Sharing

open Shared

section Serial

variable {processes processes' : Nat → Option (Process V E α Ev)}

theorem Serial.congr (h : R.Serial processes s₀ ids s)
    (hc : ∀ j ∈ ids, processes j = processes' j) : R.Serial processes' s₀ ids s := by
  induction h with
  | nil => exact .nil
  | cons h hi hs hl ih =>
    obtain ⟨hcons, hrest⟩ := List.forall_mem_cons.1 hc
    rw [history_congr hrest] at hs
    exact .cons (ih hrest) (hcons ▸ hi) hs hl

/-- A process that was not granted the lease leaves no trace. -/
theorem Serial.put (h : R.Serial y.processes s₀ ids s) (hi : i ∉ ids) (p : Process V E α Ev) :
    R.Serial (y.put i p).processes s₀ ids s := by
  apply h.congr
  intro j hj
  have hne : j ≠ i := fun he => hi (he ▸ hj)
  exact (y.put_other hne p).symm

/-- A call that the last process makes goes on with its part. -/
theorem Serial.answered (h : R.Serial y.processes s₀ (i :: ids) y.state)
    (hd : (i :: ids).Nodup) (hi : y.processes i = some p) (hl : p.left = some (.call c k))
    (hn : ∀ events, R.next (y.state, p.log ++ events) c r (s, log ++ events)) :
    R.Serial (y.put i { p with left := some (k r), log }).processes s₀ (i :: ids) s := by
  have hnot : i ∉ ids := (List.nodup_cons.1 hd).1
  cases h with
  | cons h hi' hs hq =>
    cases hi.symm.trans hi'
    cases hq _ hl
    have hsame (j : Nat) (hj : j ∈ ids) :
        y.processes j = (y.put i { p with left := some (k r), log }).processes j := by
      have hne : j ≠ i := fun he => hnot (he ▸ hj)
      exact (y.put_other hne _).symm
    apply Serial.cons (h.congr hsame) (y.put_self i _)
    · rw [← history_congr hsame]
      exact hs.trans (.call (hn _) .refl)
    · rintro p' ⟨⟩
      rfl

/-- A process that ends for good leaves its part as it is. -/
theorem Serial.dies (h : R.Serial y.processes s₀ ids s) (hi : y.processes i = some p) :
    R.Serial (y.put i { p with left := none }).processes s₀ ids s := by
  have hlog (ids : List Nat) :
      history (y.put i { p with left := none }).processes ids = history y.processes ids := by
    induction ids with
    | nil => rfl
    | cons j ids ih =>
      rw [history, history, List.flatMap_cons, List.flatMap_cons]
      refine congrArg₂ (· ++ ·) ?_ ih
      by_cases hj : j = i
      · subst hj
        rw [y.put_self, hi]
        rfl
      · rw [y.put_other hj]
  induction h with
  | nil => exact .nil
  | @cons ids s j p' q s' h hj hs hl ih =>
    rw [← hlog] at hs
    by_cases he : j = i
    · subst he
      cases hi.symm.trans hj
      exact .cons ih (y.put_self j _) hs (by rintro _ ⟨⟩)
    · exact .cons ih ((y.put_other he _).trans hj) hs hl

end Serial

/-- What a process that has not asked for the lease did so far, it can do whatever is shared. -/
def Prelude (R : Sharing V E α S Ev) (p : Process V E α Ev) (q : Prog V E α) : Prop :=
  ∀ s events, Prog.Steps R.next p.program (s, p.start ++ events) q (s, p.log ++ events)

/-- A living process stands somewhere with the lease, and keeps the rules from there. -/
structure Stands (R : Sharing V E α S Ev) (can : (c : C) → Except E (V c) → Prop)
    (l : Lease) (i : Nat) (p : Process V E α Ev) (q : Prog V E α) (x : Standing) : Prop where
  obeys : R.Obeys can (fun _ => True) q x
  intact : x ≠ .broken
  apart : x = .apart → i ∉ l.tenures
  seeking : x = .seeking → i ∉ l.tenures ∧ R.Prelude p q
  holding : x = .holding → l.holder = some i ∧ l.tenures.head? = some i

/-- What holds of every system that is reached. -/
structure Orderly (R : Sharing V E α S Ev) (can : (c : C) → Except E (V c) → Prop) (s₀ : S)
    (y : Shared V E α S Ev) : Prop where
  stands : ∀ i p q, y.processes i = some p → p.left = some q → ∃ x, R.Stands can y.lease i p q x
  begun : ∀ i p, y.processes i = some p → R.begins p.start p.program
  known : ∀ i ∈ y.lease.tenures, y.processes i ≠ none
  nodup : y.lease.tenures.Nodup
  serial : y.late = [] → R.Serial y.processes s₀ y.lease.tenures y.state

namespace Stands

variable {l l' : Lease} {i j : Nat} {p : Process V E α Ev} {q : Prog V E α} {x : Standing}

/-- What a process calls for, it may call for where it stands. -/
theorem call {k : Except E (V c) → Prog V E α} (h : R.Stands can l i p (.call c k) x)
    (hr : can c r) : x.after (R.use c) r.isOk ≠ .broken ∧
      R.Obeys can (fun _ => True) (k r) (x.after (R.use c) r.isOk) :=
  h.obeys r _ ⟨hr, rfl⟩

/-- The answer to another process leaves a process where it stands. -/
theorem passes (h : R.Stands can l j p q x) (hp : Lease.Passes i u b l l') (hj : j ≠ i) :
    R.Stands can l' j p q x := by
  cases hp with
  | granted =>
    refine ⟨h.obeys, h.intact, fun hx => ?_, fun hx => ⟨?_, (h.seeking hx).2⟩, fun hx => ?_⟩
    · exact List.not_mem_cons_of_ne_of_not_mem hj (h.apart hx)
    · exact List.not_mem_cons_of_ne_of_not_mem hj (h.seeking hx).1
    · cases (h.holding hx).1
  | stuck =>
    refine ⟨h.obeys, h.intact, h.apart, h.seeking, fun hx => ?_⟩
    cases (h.holding hx).1
  | given =>
    refine ⟨h.obeys, h.intact, fun hx => ?_, fun hx => ?_, fun hx => ?_⟩
    · rw [l.drop_tenures]
      exact h.apart hx
    · rw [l.drop_tenures]
      exact h.seeking hx
    · rw [l.drop_tenures]
      exact ⟨Lease.drop_holder (h.holding hx).1 hj, (h.holding hx).2⟩
  | refused | kept | other => exact h

theorem answered {k : Except E (V c) → Prog V E α} (hR : R.Lawful can)
    (h : R.Stands can l i p (.call c k) x) (hn : R.next (s, p.log) c r (s', log))
    (hp : Lease.Passes i (R.use c) r.isOk l l') :
    R.Stands can l' i { p with left := some (k r), log } (k r) (x.after (R.use c) r.isOk) := by
  obtain ⟨hne, hobeys⟩ := h.call (hR.can_of_next hn)
  have hgoes := Standing.goes hne
  generalize x.after (R.use c) r.isOk = x' at hne hobeys hgoes
  generalize hu : R.use c = u at hp hgoes
  generalize r.isOk = b at hp hgoes
  cases hgoes with
  | apart hplain =>
    cases hp with
    | other =>
      refine ⟨hobeys, hne, fun _ => h.apart rfl, fun hx => ?_, fun hx => ?_⟩ <;> cases hx
    | granted | refused | stuck | given | kept => simp at hplain
  | seeking =>
    cases hp with
    | other =>
      obtain ⟨hnot, hprelude⟩ := h.seeking rfl
      refine ⟨hobeys, hne, fun hx => ?_, fun _ => ⟨hnot, fun t events => ?_⟩, fun hx => ?_⟩
      · cases hx
      · have hindependent := (hR.independent (.inl hu) hn).2 t
        exact (hprelude t events).trans (.call (hR.older events hindependent) .refl)
      · cases hx
  | granted =>
    cases hp with
    | granted =>
      refine ⟨hobeys, hne, fun hx => ?_, fun hx => ?_, fun _ => ⟨rfl, rfl⟩⟩ <;> cases hx
    | other ht => exact absurd rfl ht
  | refused | returned =>
    refine ⟨hobeys, hne, fun hx => ?_, fun hx => ?_, fun hx => ?_⟩ <;> cases hx
  | holding ht hg =>
    cases hp with
    | other =>
      refine ⟨hobeys, hne, fun hx => ?_, fun hx => ?_, fun _ => h.holding rfl⟩ <;> cases hx
    | granted | refused | stuck => exact absurd rfl ht
    | given | kept => exact absurd rfl hg

theorem holder {k : Except E (V c) → Prog V E α} (hR : R.Lawful can)
    (h : R.Stands can l i p (.call c k) x) (hu : R.use c = .write ∨ R.use c = .give) :
    x = .holding := by
  obtain ⟨r, hr⟩ := hR.answerable c
  have hgoes := Standing.goes (h.call hr).1
  rcases hu with hu | hu
  · rw [hu] at hgoes
    cases hgoes with
    | holding => rfl
  · rw [hu] at hgoes
    cases hgoes with
    | returned => rfl

end Stands

namespace Orderly

theorem initial : R.Orderly can s₀ ⟨s₀, fun _ => none, ⟨none, []⟩, []⟩ where
  stands i p q hi := by cases hi
  begun i p hi := by cases hi
  known i hi := absurd hi List.not_mem_nil
  nodup := List.nodup_nil
  serial _ := .nil

/-- A process that changes, or begins, leaves what is known of the others. -/
theorem begun_put (h : R.Orderly can s₀ y) (p : Process V E α Ev)
    (hb : R.begins p.start p.program) (j : Nat)
    (hj : (y.put i p).processes j = some p') : R.begins p'.start p'.program := by
  by_cases he : j = i
  · subst he
    cases (y.put_self j p).symm.trans hj
    exact hb
  · exact h.begun j p' ((y.put_other he p).symm.trans hj)

theorem known_put (h : R.Orderly can s₀ y) (p : Process V E α Ev) (hm : j ∈ y.lease.tenures) :
    (y.put i p).processes j ≠ none := by
  by_cases he : j = i
  · subst he
    rw [y.put_self]
    exact Option.some_ne_none p
  · rw [y.put_other he]
    exact h.known j hm

theorem begins (hR : R.Lawful can) (h : R.Orderly can s₀ y) (hi : y.processes i = none)
    (hb : R.begins start q) : R.Orderly can s₀ (y.put i ⟨start, q, some q, start⟩) := by
  have hnot : i ∉ y.lease.tenures := fun hm => h.known i hm hi
  refine ⟨fun j p q' hj hl => ?_, fun j p => h.begun_put _ hb j, fun j hm => h.known_put _ hm,
    h.nodup, fun hl => (h.serial hl).put hnot _⟩
  by_cases he : j = i
  · subst he
    cases (y.put_self j _).symm.trans hj
    cases hl
    rcases hR.begins hb with ho | ho
    · refine ⟨.apart, ho, by decide, fun _ => hnot, fun hx => ?_, fun hx => ?_⟩ <;> cases hx
    · refine ⟨.seeking, ho, by decide, fun hx => ?_, fun _ => ⟨hnot, fun _ _ => .refl⟩,
        fun hx => ?_⟩
      <;> cases hx
  · exact h.stands j p q' ((y.put_other he _).symm.trans hj) hl

/-- A process that is granted the lease follows those before it. -/
theorem serial_granted {k : Except E (V c) → Prog V E α} (hR : R.Lawful can)
    (h : R.Orderly can s₀ y) (hx : R.Stands can y.lease i p (.call c k) .seeking)
    (hu : R.use c = .take) (hn : R.next (y.state, p.log) c r (s, log)) (hl : y.late = []) :
    R.Serial (y.put i { p with left := some (k r), log }).processes s₀ (i :: y.lease.tenures)
      s := by
  obtain ⟨hnot, hprelude⟩ := hx.seeking rfl
  obtain ⟨rfl, _⟩ := hR.independent (.inr hu) hn
  apply Serial.cons ((h.serial hl).put hnot _) (y.put_self i _)
  · exact (hprelude _ _).trans (.call (hR.older _ hn) .refl)
  · rintro q ⟨⟩
    rfl

/-- A process without the lease that is answered leaves the state as it is. -/
theorem serial_answered {k : Except E (V c) → Prog V E α} (hR : R.Lawful can)
    (h : R.Orderly can s₀ y) (hi : y.processes i = some p) (hl : p.left = some (.call c k))
    (hx : R.Stands can y.lease i p (.call c k) x) (hn : R.next (y.state, p.log) c r (s, log))
    (hlate : y.late = []) :
    R.Serial (y.put i { p with left := some (k r), log }).processes s₀ y.lease.tenures s := by
  have hserial := h.serial hlate
  have hsame (hnot : i ∉ y.lease.tenures) (hs : s = y.state) :
      R.Serial (y.put i { p with left := some (k r), log }).processes s₀ y.lease.tenures s :=
    hs ▸ hserial.put hnot _
  have hgoes := Standing.goes (hx.call (hR.can_of_next hn)).1
  generalize hx' : x.after (R.use c) r.isOk = x' at hgoes
  generalize hu : R.use c = u at hgoes
  generalize r.isOk = b at hgoes
  cases hgoes with
  | apart hplain =>
    apply hsame (hx.apart rfl)
    rcases hplain with rfl | rfl
    · exact hR.look hu hn
    · exact (hR.independent (.inl hu) hn).1
  | seeking => exact hsame (hx.seeking rfl).1 (hR.independent (.inl hu) hn).1
  | granted | refused => exact hsame (hx.seeking rfl).1 (hR.independent (.inr hu) hn).1
  | holding | returned =>
    obtain ⟨rest, ht⟩ := List.head?_eq_some_iff.1 (hx.holding rfl).2
    rw [ht] at hserial ⊢
    exact hserial.answered (ht ▸ h.nodup) hi hl fun events => hR.older events hn

theorem answered {k : Except E (V c) → Prog V E α} (hR : R.Lawful can)
    (h : R.Orderly can s₀ y) (hi : y.processes i = some p) (hl : p.left = some (.call c k))
    (hn : R.next (y.state, p.log) c r (s, log))
    (hp : Lease.Passes i (R.use c) r.isOk y.lease l) :
    R.Orderly can s₀
      { y.put i { p with left := some (k r), log } with state := s, lease := l } := by
  obtain ⟨x, hx⟩ := h.stands i p _ hi hl
  have hgoes := Standing.goes (hx.call (hR.can_of_next hn)).1
  have hstands (j : Nat) (p' : Process V E α Ev) (q : Prog V E α)
      (hj : (y.put i { p with left := some (k r), log }).processes j = some p')
      (hq : p'.left = some q) : ∃ x, R.Stands can l j p' q x := by
    by_cases he : j = i
    · subst he
      cases (y.put_self j _).symm.trans hj
      cases hq
      exact ⟨_, hx.answered hR hn hp⟩
    · obtain ⟨x', hx'⟩ := h.stands j p' q ((y.put_other he _).symm.trans hj) hq
      exact ⟨x', hx'.passes hp he⟩
  have hbegun (j : Nat) (p' : Process V E α Ev)
      (hj : (y.put i { p with left := some (k r), log }).processes j = some p') :
      R.begins p'.start p'.program :=
    h.begun_put { p with left := some (k r), log } (h.begun i p hi) j hj
  rcases hp.tenures_eq with ht | ⟨hu, hb, ht⟩
  · have hserial (hlate : y.late = []) := h.serial_answered hR hi hl hx hn hlate
    rw [← ht] at hserial
    exact ⟨hstands, hbegun, fun j hm => h.known_put _ (ht ▸ hm), ht ▸ h.nodup, hserial⟩
  · rw [hu, hb] at hgoes
    cases hgoes with
    | granted =>
      have hserial (hlate : y.late = []) := h.serial_granted hR hx hu hn hlate
      rw [← ht] at hserial
      refine ⟨hstands, hbegun, fun j hm => ?_, ?_, hserial⟩
      · change j ∈ l.tenures at hm
        rw [ht] at hm
        rcases List.mem_cons.1 hm with rfl | hm
        · exact Option.ne_none_iff_exists'.2 ⟨_, y.put_self j _⟩
        · exact h.known_put _ hm
      · exact ht ▸ List.nodup_cons.2 ⟨(hx.seeking rfl).1, h.nodup⟩

theorem dies (h : R.Orderly can s₀ y) (hi : y.processes i = some p) :
    R.Orderly can s₀ { y.put i { p with left := none } with lease := y.lease.drop i } := by
  have ht := y.lease.drop_tenures i
  refine ⟨fun j p' q hj hq => ?_, fun j p' =>
    h.begun_put { p with left := none } (h.begun i p hi) j, fun j hm => h.known_put _ (ht ▸ hm),
    ht ▸ h.nodup, fun hlate => ht ▸ (h.serial hlate).dies hi⟩
  by_cases he : j = i
  · subst he
    cases (y.put_self j _).symm.trans hj
    cases hq
  · obtain ⟨x, hx⟩ := h.stands j p' q ((y.put_other he _).symm.trans hj) hq
    exact ⟨x, hx.passes (b := true) .given he⟩

theorem outlived {k : Except E (V c) → Prog V E α} (hR : R.Lawful can)
    (h : R.Orderly can s₀ y) (hi : y.processes i = some p) (hl : p.left = some (.call c k))
    (hu : R.use c = .write) (hn : R.next (y.state, p.log) c (.error e) (y.state, log)) :
    R.Orderly can s₀ { y.put i { p with left := some (k (.error e)), log } with
      late := c :: y.late } := by
  have hp : Lease.Passes i (R.use c) (Except.isOk (.error e : Except E (V c))) y.lease y.lease := by
    rw [hu]
    exact .other (by decide) (by decide)
  have ho := h.answered hR hi hl hn hp
  exact ⟨ho.stands, ho.begun, ho.known, ho.nodup, fun hlate => by cases hlate⟩

theorem lands (h : R.Orderly can s₀ y) (hc : c ∈ y.late) (s : S) :
    R.Orderly can s₀ { y with state := s } := by
  refine ⟨h.stands, h.begun, h.known, h.nodup, fun hlate => ?_⟩
  change y.late = [] at hlate
  rw [hlate] at hc
  cases hc

theorem step (hR : R.Lawful can) (h : R.Orderly can s₀ y) (hs : R.Step y y') :
    R.Orderly can s₀ y' := by
  cases hs with
  | begins hi hb => exact h.begins hR hi hb
  | answered hi hl hn hp => exact h.answered hR hi hl hn hp
  | dies hi => exact h.dies hi
  | outlived hi hl hu hn => exact h.outlived hR hi hl hu hn
  | lands hc => exact h.lands hc _

end Orderly

theorem Reached.orderly (hR : R.Lawful can) (h : R.Reached s₀ y) : R.Orderly can s₀ y := by
  induction h with
  | initial => exact .initial
  | step _ hs ih => exact ih.step hR hs

theorem Reached.holder {k : Except E (V c) → Prog V E α} (hR : R.Lawful can) (h : R.Reached s₀ y)
    (hi : y.processes i = some p) (hl : p.left = some (.call c k)) (hu : R.use c = .write) :
    y.lease.holder = some i := by
  obtain ⟨x, hx⟩ := (h.orderly hR).stands i p _ hi hl
  exact (hx.holding (hx.holder hR (.inl hu))).1

/-- An answer that breaks no rule can be given when the lease is free for whoever asks for it. -/
theorem exists_passes {x : Standing} (i : Nat) (h : x.Goes u b x')
    (hf : x = .seeking → l.holder = none) :
    ∃ l', Lease.Passes i u b l l' ∧ (x' = .seeking → l'.holder = none) := by
  cases h with
  | apart hu =>
    refine ⟨l, ?_, fun hx => by cases hx⟩
    rcases hu with rfl | rfl <;> exact .other (by decide) (by decide)
  | seeking => exact ⟨l, .other (by decide) (by decide), fun _ => hf rfl⟩
  | granted =>
    obtain ⟨holder, ids⟩ := l
    obtain rfl : holder = none := hf rfl
    exact ⟨_, .granted, fun hx => by cases hx⟩
  | refused => exact ⟨l, .refused, fun hx => by cases hx⟩
  | holding ht hg => exact ⟨l, .other ht hg, fun hx => by cases hx⟩
  | returned => exact ⟨_, .given, fun hx => by cases hx⟩

/-- Whatever a process could do alone, it can do in the system while the lease is free. -/
theorem Reached.runs {q q' : Prog V E α} (hR : R.Lawful can) (h : R.Reached s₀ y)
    (hi : y.processes i = some p) (hl : p.left = some q) (ho : R.Obeys can F q x)
    (hf : x = .seeking → y.lease.holder = none)
    (hs : Prog.Steps R.next q (y.state, p.log) q' (s', log')) :
    ∃ y', R.Reached s₀ y' ∧ y'.processes i = some { p with left := some q', log := log' } ∧
      y'.state = s' ∧ y'.late = y.late ∧ ∀ j ≠ i, y'.processes j = y.processes j := by
  generalize hw : (y.state, p.log) = w at hs
  generalize hw' : (s', log') = w' at hs
  induction hs generalizing y p x with
  | refl =>
    subst hw
    cases hw'
    obtain ⟨start, program, left, log⟩ := p
    cases hl
    exact ⟨y, h, hi, rfl, rfl, fun _ _ => rfl⟩
  | @call w c r w₁ k q w' hn _ ih =>
    subst hw
    obtain ⟨s₁, log₁⟩ := w₁
    have hobeys := ho r _ ⟨hR.can_of_next hn, rfl⟩
    obtain ⟨l, hp, hfree⟩ := exists_passes i (Standing.goes hobeys.1) hf
    have hreached := h.step (.answered hi hl hn hp)
    obtain ⟨y', h', hi', hs', hl', hother⟩ :=
      ih hreached (y.put_self i _) rfl hobeys.2 hfree rfl hw'
    exact ⟨y', h', hi', hs', hl', fun j hj => (hother j hj).trans (y.put_other hj _)⟩

end Sharing

end Library
