import GoalRouter.SdkClient
import GoalRouter.Library.Interference
import GoalRouter.Library.Ownership

namespace GoalRouter
open Library
set_option autoImplicit true

namespace CodexSdkClient

/-- What a request has to give back. -/
inductive Resource where
  | session
  | streams (process : Nat)
  deriving DecidableEq

/-- What one request did so far. -/
structure Log where
  resources : List (Ownership Resource)
  authenticated : Bool

namespace Log

def empty : Log := ⟨[], false⟩

def event (log : Log) (event : Ownership Resource) : Log :=
  { log with resources := log.resources ++ [event] }

/-- A session is left, and streams are given to a thread to close, even where that raises. A
cancelled request does not wait for that thread, which may then not have begun. -/
def after (log : Log) : (c : Call) → Except Raised (Val c) → Log
  | .enter, .ok _ => { log.event (.acquired .session) with authenticated := false }
  | .exit, _ => { log.event (.released .session) with authenticated := false }
  | .transportProcess, .ok (some process) => log.event (.acquired (.streams process))
  | .closeOutputStreams process, _ => log.event (.released (.streams process))
  | .account, .ok true => { log with authenticated := true }
  | .loginApiKey _, .ok _ => { log with authenticated := true }
  | _, _ => log

end Log

/-- A client that any number of requests use at a time, each with its log. A copy of the session
goes on when the request that waits for it is cancelled. -/
structure World where
  staged : Bool
  copied : Bool
  holder : Option Nat
  abandoned : Nat
  logs : Nat → Log

namespace World

def initial (client : CodexSdkClient) : World where
  staged := client.codexHome.isNone
  copied := false
  holder := none
  abandoned := 0
  logs _ := .empty

def record (w : World) (i : Nat) (c : Call) (r : Except Raised (Val c)) : World :=
  { w with logs := Function.update w.logs i ((w.logs i).after c r) }

theorem record_self (w : World) (i : Nat) (c : Call) (r : Except Raised (Val c)) :
    (w.record i c r).logs i = (w.logs i).after c r :=
  Function.update_self ..

end World

/-- Calls that are about what the requests share. -/
def Call.isShared : Call → Bool
  | .isStaged | .setStaged | .acquireStaging | .releaseStaging | .stage .. => true
  | _ => false

/-- Calls that raise nothing. -/
def Call.isTotal : Call → Bool
  | .transportProcess | .expired => true
  | _ => false

/-- How a call of request `i` is answered. -/
inductive Next (i : Nat) : Prog.Answers Val Raised World where
  | isStaged : Next i w .isStaged (.ok w.staged) w
  | setStaged : Next i w .setStaged (.ok ()) { w with staged := true }
  | acquired (h : w.holder = none) : Next i w .acquireStaging (.ok ()) { w with holder := some i }
  | notAcquired : Next i w .acquireStaging (.error e) w
  | released : Next i w .releaseStaging (.ok ()) { w with holder := none }
  | copied : Next i w (.stage source staging) (.ok ()) { w with copied := true }
  | notCopied : Next i w (.stage source staging) (.error e) w
  | abandoned : Next i w (.stage source staging) (.error e) { w with abandoned := w.abandoned + 1 }
  | other (hc : c.isShared = false) (ht : c.isTotal = true → r.isOk = true) :
      Next i w c r (w.record i c r)

/-- A copy that nobody waits for ends. -/
inductive Outside : World → World → Prop where
  | copied (h : w.abandoned = n + 1) : Outside w { w with copied := true, abandoned := n }
  | failed (h : w.abandoned = n + 1) : Outside w { w with abandoned := n }

/-- A client that says it has staged its session has done so. -/
def World.Sane (client : CodexSdkClient) (w : World) : Prop :=
  w.staged = true → client.codexHome.isSome = true → w.copied = true

/-- Request `i` has to give back `held`. -/
def World.Holds (w : World) (i : Nat) (held : Multiset Resource) : Prop :=
  Outstanding (w.logs i).resources held

/-- What a step of another request leaves request `i`. -/
structure Bears (client : CodexSdkClient) (i : Nat) (w w' : World) : Prop where
  log : w'.logs i = w.logs i
  staged : w.staged = true → w'.staged = true
  copied : w.copied = true → w'.copied = true
  holder : w.holder = some i ↔ w'.holder = some i
  unstaged : w.holder = some i → w'.staged = w.staged
  sane : w.Sane client → w'.Sane client

/-- Where request `i` may make a call: it copies the session only under the lock and while that was
not done, and uses the SDK only in a session that it entered, with an account, after the copy. -/
def Call.Allowed (client : CodexSdkClient) (i : Nat) (w : World) : Call → Prop
  | .stage .. => w.holder = some i ∧ w.staged = false
  | .setStaged => w.holder = some i ∧ w.copied = true
  | .acquireStaging => w.holder ≠ some i
  | .releaseStaging => w.holder = some i
  | .connect .. | .enter => (w.staged = true ∧ w.Sane client) ∧ w.Holds i 0
  | .account | .loginApiKey _ => (w.staged = true ∧ w.Sane client) ∧ w.Holds i {.session}
  | .models | .threadStart .. | .threadResume .. | .run .. =>
    (w.staged = true ∧ w.Sane client) ∧ w.Holds i {.session} ∧ (w.logs i).authenticated = true
  | .exit => ∃ held, w.Holds i (.session ::ₘ held)
  | .closeOutputStreams process => w.Holds i {.streams process}
  | .isStaged | .reasoningEffort _ | .transportProcess | .expired => True

def terms (client : CodexSdkClient) (i : Nat) : Terms Call World where
  rely := Bears client i
  guarantee w w' := ∀ j, j ≠ i → Bears client j w w'
  allowed c w := c.Allowed client i w
  rely_refl _ := ⟨rfl, id, id, Iff.rfl, fun _ => rfl, id⟩
  rely_trans _ _ _ h h' :=
    ⟨h'.log.trans h.log, h'.staged ∘ h.staged, h'.copied ∘ h.copied, h.holder.trans h'.holder,
      fun hw => (h'.unstaged (h.holder.1 hw)).trans (h.unstaged hw), h'.sane ∘ h.sane⟩

section Steps

variable {client : CodexSdkClient} {i : Nat} {w w' : World}

/-- A call that is allowed leaves the other requests what they rely on. -/
theorem Next.bears {c : Call} {r : Except Raised (Val c)} (h : Next i w c r w')
    (ha : c.Allowed client i w) (j : Nat) (hj : j ≠ i) : Bears client j w w' := by
  have hne : i ≠ j := Ne.symm hj
  cases h with
  | isStaged | notAcquired | notCopied => exact ⟨rfl, id, id, Iff.rfl, fun _ => rfl, id⟩
  | setStaged =>
    obtain ⟨hh, hc⟩ := ha
    refine ⟨rfl, fun _ => rfl, id, Iff.rfl, fun hw => ?_, fun _ _ _ => hc⟩
    exact absurd (Option.some.inj (hh.symm.trans hw)) hne
  | acquired h =>
    refine ⟨rfl, id, id, ?_, fun _ => rfl, id⟩
    simp [h, hne]
  | released =>
    refine ⟨rfl, id, id, ?_, fun _ => rfl, id⟩
    simp [show w.holder = some i from ha, hne]
  | copied => exact ⟨rfl, id, fun _ => rfl, Iff.rfl, fun _ => rfl, fun _ _ _ => rfl⟩
  | abandoned => exact ⟨rfl, id, id, Iff.rfl, fun _ => rfl, id⟩
  | other => exact ⟨Function.update_of_ne hj .., id, id, Iff.rfl, fun _ => rfl, id⟩

theorem Outside.bears (h : Outside w w') (j : Nat) : Bears client j w w' := by
  cases h with
  | copied => exact ⟨rfl, id, fun _ => rfl, Iff.rfl, fun _ => rfl, fun _ _ _ => rfl⟩
  | failed => exact ⟨rfl, id, id, Iff.rfl, fun _ => rfl, id⟩

/-- Request `i` has to give back `held`, and is not at the lock. -/
structure Stands (client : CodexSdkClient) (i : Nat) (held : Multiset Resource) (w : World) :
    Prop where
  holds : w.Holds i held
  sane : w.Sane client
  apart : w.holder ≠ some i

/-- The same within the lock. -/
structure Stages (client : CodexSdkClient) (i : Nat) (w : World) : Prop where
  holds : w.Holds i 0
  sane : w.Sane client
  holder : w.holder = some i

theorem stable_stands (held : Multiset Resource) :
    (terms client i).Stable (Stands client i held) := by
  intro w w' hb h
  refine ⟨?_, hb.sane h.sane, fun hw => h.apart (hb.holder.2 hw)⟩
  rw [World.Holds, hb.log]
  exact h.holds

theorem stable_stages : (terms client i).Stable (Stages client i) := by
  intro w w' hb h
  refine ⟨?_, hb.sane h.sane, hb.holder.1 h.holder⟩
  rw [World.Holds, hb.log]
  exact h.holds

theorem stable_staged : (terms client i).Stable fun w => w.staged = true := fun _ _ hb => hb.staged

theorem stable_copied : (terms client i).Stable fun w => w.copied = true := fun _ _ hb => hb.copied

/-- Only the holder of the lock says that the session is staged. -/
theorem stable_stages_staged (b : Bool) :
    (terms client i).Stable fun w => Stages client i w ∧ w.staged = b := by
  intro w w' hb h
  refine ⟨stable_stages w w' hb h.1, ?_⟩
  rw [hb.unstaged h.1.holder]
  exact h.2

theorem stable_authenticated :
    (terms client i).Stable fun w => (w.logs i).authenticated = true := by
  intro w w' hb h
  rw [hb.log]
  exact h

end Steps

/-- From where `A` holds, the program returns with `Q` and raises where `B` holds; at every call it
keeps the rules, whatever the other requests do. -/
abbrev Serves (client : CodexSdkClient) (i : Nat) (A : World → Prop) (Q : α → World → Prop)
    (B : World → Prop) (p : Session α) : Prop :=
  ∀ w, A w → p.Endures (Next i) (terms client i) Q (fun _ => B) w

section Staging

variable {client : CodexSdkClient} {i : Nat} {A B : World → Prop}

theorem serves_invoke {c : Call} {Q : Val c → World → Prop} (hA : (terms client i).Stable A)
    (hQ : ∀ v, (terms client i).Stable (Q v)) (hB : (terms client i).Stable B)
    (ha : ∀ w, A w → c.Allowed client i w)
    (hn : ∀ w r w', A w → Next i w c r w' → match r with | .ok v => Q v w' | .error _ => B w') :
    Serves client i A Q B (invoke c) := by
  intro w hw
  apply Prog.Endures.invoke hA hw ha
  intro w r w' hw hnext
  refine ⟨hnext.bears (ha w hw), ?_⟩
  have hend := hn w r w' hw hnext
  cases r with
  | ok v => exact ⟨hQ v, hend⟩
  | error e => exact ⟨hB, hend⟩

theorem serves_fail (hB : (terms client i).Stable B) (kind : ErrorKind) (message : Text)
    {Q : α → World → Prop} : Serves client i B Q B (fail kind message) :=
  fun _ hw => Prog.Endures.throw hB hw

theorem serves_isStaged (hA : (terms client i).Stable A) :
    Serves client i A (fun (v : Bool) w => A w ∧ (v = true → w.staged = true)) A
      (invoke .isStaged) := by
  apply serves_invoke hA
  · intro v w w' hb h
    exact ⟨hA w w' hb h.1, fun hv => hb.staged (h.2 hv)⟩
  · exact hA
  · exact fun _ _ => trivial
  · intro w r w' hw hn
    cases hn with
    | isStaged => exact ⟨hw, id⟩
    | other hc => cases hc

theorem serves_stageCodexHomeOnce :
    Serves client i (Stages client i) (fun _ w => Stages client i w ∧ w.staged = true)
      (Stages client i) client.stageCodexHomeOnce := by
  have hasked : Serves client i (Stages client i)
      (fun (v : Bool) w => Stages client i w ∧ w.staged = v) (Stages client i)
      (invoke .isStaged) := by
    apply serves_invoke stable_stages
    · exact stable_stages_staged
    · exact stable_stages
    · exact fun _ _ => trivial
    · intro w r w' hw hn
      cases hn with
      | isStaged => exact ⟨hw, rfl⟩
      | other hc => cases hc
  have hcopied : (terms client i).Stable fun w => Stages client i w ∧ w.copied = true :=
    stable_stages.and stable_copied
  intro w hw
  apply (hasked w hw).bind
  intro staged w hw
  cases staged with
  | true => exact Prog.Endures.pure (stable_stages_staged true) hw
  | false =>
    simp only [Bool.false_eq_true, ↓reduceIte]
    split
    · exact serves_fail stable_stages _ _ w hw.1
    · rename_i source staging _
      have hstage : Serves client i (fun w => Stages client i w ∧ w.staged = false)
          (fun _ w => Stages client i w ∧ w.copied = true) (Stages client i)
          (invoke (.stage source staging)) := by
        apply serves_invoke (stable_stages_staged false) (fun _ => hcopied) stable_stages
        · exact fun w hw => ⟨hw.1.holder, hw.2⟩
        · intro w r w' hw hn
          cases hn with
          | copied => exact ⟨⟨hw.1.holds, fun _ _ => rfl, hw.1.holder⟩, rfl⟩
          | notCopied => exact hw.1
          | abandoned => exact ⟨hw.1.holds, hw.1.sane, hw.1.holder⟩
          | other hc => cases hc
      have hset : Serves client i (fun w => Stages client i w ∧ w.copied = true)
          (fun _ w => Stages client i w ∧ w.staged = true) (Stages client i)
          (invoke .setStaged) := by
        apply serves_invoke hcopied (fun _ => stable_stages_staged true) stable_stages
        · exact fun w hw => ⟨hw.1.holder, hw.2⟩
        · intro w r w' hw hn
          cases hn with
          | setStaged => exact ⟨⟨hw.1.holds, fun _ _ => hw.2, hw.1.holder⟩, rfl⟩
          | other hc => cases hc
      apply Prog.Endures.bind (Q := fun _ w => Stages client i w ∧ w.copied = true)
      · apply (hstage w hw).attempt_bind
        · exact fun _ _ hw => Prog.Endures.pure hcopied hw
        · intro e w hw
          simp only
          split
          · exact serves_fail stable_stages _ _ w hw
          · exact Prog.Endures.throw stable_stages hw
      · exact fun _ w hw => hset w hw

theorem serves_releaseStaging (staged : Prop) :
    Serves client i (fun w => Stages client i w ∧ (staged → w.staged = true))
      (fun _ w => Stands client i 0 w ∧ (staged → w.staged = true)) (Stands client i 0)
      (invoke .releaseStaging) := by
  have hstaged : (terms client i).Stable fun w => staged → w.staged = true :=
    fun _ _ hb h hs => hb.staged (h hs)
  apply serves_invoke (stable_stages.and hstaged) (fun _ => (stable_stands 0).and hstaged)
    (stable_stands 0)
  · exact fun w hw => hw.1.holder
  · intro w r w' hw hn
    cases hn with
    | released => exact ⟨⟨hw.1.holds, hw.1.sane, by simp⟩, hw.2⟩
    | other hc => cases hc

theorem serves_prepareCodexHome :
    Serves client i (Stands client i 0) (fun _ w => Stands client i 0 w ∧ w.staged = true)
      (Stands client i 0) client.prepareCodexHome := by
  have hacquire : Serves client i (Stands client i 0) (fun _ => Stages client i)
      (Stands client i 0) (invoke .acquireStaging) := by
    apply serves_invoke (stable_stands 0) (fun _ => stable_stages) (stable_stands 0)
    · exact fun w hw => hw.apart
    · intro w r w' hw hn
      cases hn with
      | acquired => exact ⟨hw.holds, hw.sane, rfl⟩
      | notAcquired => exact hw
      | other hc => cases hc
  intro w hw
  apply (serves_isStaged (stable_stands 0) w hw).bind
  intro staged w hw
  cases staged with
  | true => exact Prog.Endures.pure ((stable_stands 0).and stable_staged) ⟨hw.1, hw.2 rfl⟩
  | false =>
    simp only [Bool.false_eq_true, ↓reduceIte]
    apply (hacquire w hw.1).bind
    intro _ w hw
    apply (serves_stageCodexHomeOnce w hw).attempt_bind
    · intro _ w hw
      apply (serves_releaseStaging True w ⟨hw.1, fun _ => hw.2⟩).bind
      intro _ w hw
      exact Prog.Endures.pure ((stable_stands 0).and stable_staged) ⟨hw.1, hw.2 trivial⟩
    · intro e w hw
      apply (serves_releaseStaging False w ⟨hw, False.elim⟩).attempt_bind
      · exact fun _ _ hw => Prog.Endures.throw (stable_stands 0) hw.1
      · exact fun _ _ hw => Prog.Endures.throw (stable_stands 0) hw

end Staging

section Sessions

variable {client : CodexSdkClient} {i : Nat} {A B : World → Prop}

theorem serves_other {c : Call} {Q : Val c → World → Prop} (hc : c.isShared = false)
    (hA : (terms client i).Stable A) (hQ : ∀ v, (terms client i).Stable (Q v))
    (hB : (terms client i).Stable B) (ha : ∀ w, A w → c.Allowed client i w)
    (hn : ∀ w (r : Except Raised (Val c)), A w → (c.isTotal = true → r.isOk = true) →
      match r with | .ok v => Q v (w.record i c r) | .error _ => B (w.record i c r)) :
    Serves client i A Q B (invoke c) := by
  apply serves_invoke hA hQ hB ha
  intro w r w' hw hnext
  cases hnext with
  | other _ ht => exact hn w r hw ht
  | isStaged | setStaged | acquired | notAcquired | released | copied | notCopied | abandoned =>
    cases hc

/-- A call that leaves no trace in the log. -/
theorem serves_untraced {c : Call} (hc : c.isShared = false) (hl : ∀ log r, Log.after log c r = log)
    (hA : (terms client i).Stable A) (ha : ∀ w, A w → c.Allowed client i w) :
    Serves client i A (fun _ => A) A (invoke c) := by
  have hrecord (w : World) (r : Except Raised (Val c)) (hw : A w) : A (w.record i c r) := by
    apply hA w _ _ hw
    refine ⟨?_, id, id, Iff.rfl, fun _ => rfl, id⟩
    rw [World.record_self, hl]
  apply serves_other hc hA (fun _ => hA) hA ha
  intro w r hw _
  cases r with
  | ok v => exact hrecord w _ hw
  | error e => exact hrecord w _ hw

theorem Stands.record {held held' : Multiset Resource} {w : World} {c : Call}
    {r : Except Raised (Val c)} (h : Stands client i held w)
    (ho : Outstanding ((w.logs i).after c r).resources held') :
    Stands client i held' (w.record i c r) := by
  refine ⟨?_, h.sane, h.apart⟩
  rw [World.Holds, World.record_self]
  exact ho

/-- Within a session of a client that is staged. -/
def Within (client : CodexSdkClient) (i : Nat) (w : World) : Prop :=
  Stands client i {.session} w ∧ w.staged = true

theorem stable_within : (terms client i).Stable (Within client i) :=
  (stable_stands _).and stable_staged

theorem serves_connect (codexBin codexHome : Option Text) :
    Serves client i (fun w => Stands client i 0 w ∧ w.staged = true)
      (fun _ w => Stands client i 0 w ∧ w.staged = true)
      (fun w => Stands client i 0 w ∧ w.staged = true) (invoke (.connect codexBin codexHome)) := by
  apply serves_untraced rfl (fun _ _ => rfl) ((stable_stands 0).and stable_staged)
  exact fun w hw => ⟨⟨hw.2, hw.1.sane⟩, hw.1.holds⟩

theorem serves_enter :
    Serves client i (fun w => Stands client i 0 w ∧ w.staged = true) (fun _ => Within client i)
      (Stands client i 0) (invoke .enter) := by
  apply serves_other rfl ((stable_stands 0).and stable_staged) (fun _ => stable_within)
    (stable_stands 0)
  · exact fun w hw => ⟨⟨hw.2, hw.1.sane⟩, hw.1.holds⟩
  · intro w r hw _
    cases r with
    | ok v =>
      refine ⟨?_, hw.2⟩
      apply hw.1.record
      exact hw.1.holds.acquired
    | error e =>
      apply hw.1.record
      exact hw.1.holds

/-- A session is left with or without an exception. -/
theorem serves_exit (held : Multiset Resource) :
    Serves client i (Stands client i (.session ::ₘ held)) (fun _ => Stands client i held)
      (Stands client i held) (invoke .exit) := by
  apply serves_other rfl (stable_stands _) (fun _ => stable_stands _) (stable_stands _)
  · exact fun w hw => ⟨held, hw.holds⟩
  · intro w r hw _
    have hleft : Stands client i held (w.record i .exit r) := by
      apply hw.record
      exact Outstanding.released hw.holds
    cases r with
    | ok v => exact hleft
    | error e => exact hleft

theorem serves_closeOutputStreams (process : Nat) :
    Serves client i (Stands client i {.streams process}) (fun _ => Stands client i 0)
      (Stands client i 0) (invoke (.closeOutputStreams process)) := by
  apply serves_other rfl (stable_stands _) (fun _ => stable_stands _) (stable_stands _)
  · exact fun w hw => hw.holds
  · intro w r hw _
    have hclosed : Stands client i 0 (w.record i (.closeOutputStreams process) r) := by
      apply hw.record
      exact Outstanding.released hw.holds
    cases r with
    | ok v => exact hclosed
    | error e => exact hclosed

/-- The streams to close for the process behind a session, if there is one. -/
def streams : Option Nat → Multiset Resource
  | some process => {.streams process}
  | none => 0

theorem serves_transportProcess (hB : (terms client i).Stable B) :
    Serves client i (Stands client i {.session})
      (fun (process : Option Nat) => Stands client i (.session ::ₘ streams process)) B
      (invoke .transportProcess) := by
  apply serves_other rfl (stable_stands _) (fun _ => stable_stands _) hB
  · exact fun _ _ => trivial
  · intro w r hw ht
    cases r with
    | error e => cases ht rfl
    | ok process =>
      cases process with
      | none =>
        apply hw.record
        exact hw.holds
      | some process =>
        have hswap : .session ::ₘ streams (some process) = .streams process ::ₘ {.session} :=
          Multiset.cons_swap _ _ 0
        show Stands client i (.session ::ₘ streams (some process)) _
        rw [hswap]
        apply hw.record
        exact hw.holds.acquired

theorem serves_outcomeOf {result : Except Raised α} {Ok : α → Prop}
    (hok : ∀ a, result = .ok a → Ok a) (exited : Except Raised Unit) :
    Serves client i (Stands client i 0) (fun a w => Ok a ∧ Stands client i 0 w)
      (Stands client i 0) (outcomeOf result exited) := by
  intro w hw
  cases exited with
  | error e => exact Prog.Endures.throw (stable_stands 0) hw
  | ok _ =>
    apply Prog.Endures.ofExcept
    · exact fun a ha => ⟨(Terms.stable_const _).and (stable_stands 0), hok a ha, hw⟩
    · exact fun _ _ => ⟨stable_stands 0, hw⟩

theorem serves_closeStreams (process : Option Nat) :
    Serves client i (Stands client i (streams process)) (fun _ => Stands client i 0)
      (Stands client i 0) (closeStreams process) := by
  intro w hw
  cases process with
  | none => exact Prog.Endures.pure (stable_stands 0) hw
  | some process => exact serves_closeOutputStreams process w hw

/-- However its body ends, a session is left, and its streams are closed. -/
theorem serves_leave {result : Except Raised α} {Ok : α → Prop}
    (hok : ∀ a, result = .ok a → Ok a) :
    Serves client i (Stands client i {.session}) (fun a w => Ok a ∧ Stands client i 0 w)
      (Stands client i 0) (leave result) := by
  intro w hw
  apply (serves_transportProcess (stable_stands 0) w hw).bind
  intro process w hw
  apply (serves_exit _ w hw).attempt_bind
  · intro _ w hw
    apply (serves_closeStreams process w hw).bind
    exact fun _ w hw => serves_outcomeOf hok _ w hw
  · intro e w hw
    apply (serves_closeStreams process w hw).bind
    exact fun _ w hw => serves_outcomeOf hok _ w hw

theorem serves_managedCodex {body : Session α} {Ok : α → Prop}
    (hb : Serves client i (Within client i) (fun a w => Ok a ∧ Stands client i {.session} w)
      (Stands client i {.session}) body) (codexBin codexHome : Option Text) :
    Serves client i (fun w => Stands client i 0 w ∧ w.staged = true)
      (fun a w => Ok a ∧ Stands client i 0 w) (Stands client i 0)
      (managedCodex codexBin codexHome body) := by
  intro w hw
  apply (serves_connect codexBin codexHome w hw).mono (fun _ _ h => h) (fun _ _ h => h.1) |>.bind
  intro _ w hw
  apply (serves_enter w hw).bind
  intro _ w hw
  apply (hb w hw).attempt_bind
  · intro a w hw
    apply serves_leave _ w hw.2
    rintro _ ⟨⟩
    exact hw.1
  · intro e w hw
    apply serves_leave _ w hw
    rintro _ ⟨⟩

/-- Within a session that has an account. -/
def Authenticated (client : CodexSdkClient) (i : Nat) (w : World) : Prop :=
  Within client i w ∧ (w.logs i).authenticated = true

theorem stable_authenticated_within : (terms client i).Stable (Authenticated client i) :=
  stable_within.and stable_authenticated

theorem serves_requireAccount :
    Serves client i (Within client i) (fun _ => Authenticated client i)
      (Stands client i {.session}) client.requireAccount := by
  have haccount : Serves client i (Within client i)
      (fun (account : Bool) w => Within client i w ∧
        (account = true → (w.logs i).authenticated = true))
      (Stands client i {.session}) (invoke .account) := by
    apply serves_other rfl stable_within
    · intro account w w' hb h
      exact ⟨stable_within w w' hb h.1, fun ha => stable_authenticated w w' hb (h.2 ha)⟩
    · exact stable_stands _
    · exact fun w hw => ⟨⟨hw.2, hw.1.sane⟩, hw.1.holds⟩
    · intro w r hw _
      cases r with
      | error e =>
        apply hw.1.record
        exact hw.1.holds
      | ok account =>
        cases account with
        | false =>
          refine ⟨⟨?_, hw.2⟩, fun ha => by cases ha⟩
          apply hw.1.record
          exact hw.1.holds
        | true =>
          refine ⟨⟨?_, hw.2⟩, fun _ => ?_⟩
          · apply hw.1.record
            exact hw.1.holds
          · rw [World.record_self]
            rfl
  have hlogin (apiKey : Text) : Serves client i (Within client i) (fun _ => Authenticated client i)
      (Stands client i {.session}) (invoke (.loginApiKey apiKey)) := by
    apply serves_other rfl stable_within (fun _ => stable_authenticated_within) (stable_stands _)
    · exact fun w hw => ⟨⟨hw.2, hw.1.sane⟩, hw.1.holds⟩
    · intro w r hw _
      cases r with
      | error e =>
        apply hw.1.record
        exact hw.1.holds
      | ok v =>
        refine ⟨⟨?_, hw.2⟩, ?_⟩
        · apply hw.1.record
          exact hw.1.holds
        · rw [World.record_self]
          rfl
  intro w hw
  rw [requireAccount]
  split
  · apply (haccount w hw).bind
    intro account w hw
    cases account with
    | true => exact Prog.Endures.pure stable_authenticated_within ⟨hw.1, hw.2 rfl⟩
    | false => exact serves_fail (stable_stands _) _ _ w hw.1.1
  · cases orElseText (client.apiKey.getD []) ((client.environ (text "OPENAI_API_KEY")).getD []) with
    | nil => exact serves_fail (stable_stands _) _ _ w hw.1
    | cons c cs => exact hlogin (c :: cs) w hw

theorem serves_authenticate :
    Serves client i (Within client i) (fun _ => Authenticated client i)
      (Stands client i {.session}) client.authenticate := by
  intro w hw
  apply (serves_requireAccount w hw).attempt_bind
  · exact fun _ w hw => Prog.Endures.pure stable_authenticated_within hw
  · intro e w hw
    simp only
    split
    · exact Prog.Endures.throw (stable_stands _) hw
    · split
      · exact serves_fail (stable_stands _) _ _ w hw
      · exact Prog.Endures.throw (stable_stands _) hw

theorem serves_session {body : Session α} {Ok : α → Prop}
    (hb : Serves client i (Authenticated client i)
      (fun a w => Ok a ∧ Stands client i {.session} w) (Stands client i {.session}) body) :
    Serves client i (Stands client i 0) (fun a w => Ok a ∧ Stands client i 0 w)
      (Stands client i 0) (client.session body) := by
  intro w hw
  apply (serves_prepareCodexHome w hw).bind
  intro _ w hw
  apply serves_managedCodex _ _ _ w hw
  intro w hw
  apply (serves_authenticate w hw).bind
  exact fun _ w hw => hb w hw

theorem serves_withTimeout {p : Session α} {Q : α → World → Prop}
    (hQ : ∀ a, (terms client i).Stable (Q a)) (h : Serves client i A Q (Stands client i 0) p) :
    Serves client i A Q (Stands client i 0) (withTimeout p) := by
  have hexpired : Serves client i (Stands client i 0) (fun _ => Stands client i 0)
      (Stands client i 0) (invoke .expired) :=
    serves_untraced rfl (fun _ _ => rfl) (stable_stands 0) fun _ _ => trivial
  intro w hw
  apply (h w hw).attempt_bind
  · exact fun a _ hw => Prog.Endures.pure (hQ a) hw
  · intro e w hw
    simp only
    split
    · exact Prog.Endures.throw (stable_stands 0) hw
    · apply (hexpired w hw).bind
      intro expired w hw
      cases expired with
      | true => exact Prog.Endures.throw (stable_stands 0) hw
      | false => exact Prog.Endures.throw (stable_stands 0) hw

end Sessions

section Requests

variable {client : CodexSdkClient} {i : Nat}

/-- What may leave the client: errors of its own, and a cancellation. -/
def Escapes (timedOut : ErrorKind) (e : Raised) : Prop :=
  e.error.kind = timedOut ∨ e.error.kind = .authenticationError ∨ e.error.kind = .sdkError ∨
    e.error.kind = .cancelledError

theorem serves_translating {p : Session α} {Ok : α → Prop} {timedOut failed : PyError}
    {kind : ErrorKind} (ht : timedOut.kind = kind) (hf : failed.kind = .sdkError)
    (h : Serves client i (Stands client i 0) (fun a w => Ok a ∧ Stands client i 0 w)
      (Stands client i 0) p) {w : World} (hw : Stands client i 0 w) :
    (translating timedOut failed p).Endures (Next i) (terms client i)
      (fun a w => Ok a ∧ Stands client i 0 w) (fun e w => Escapes kind e ∧ Stands client i 0 w)
      w := by
  have hthrow {e : Raised} (he : Escapes kind e) {w : World} (hw : Stands client i 0 w) :
      (.throw e : Session α).Endures (Next i) (terms client i)
        (fun a w => Ok a ∧ Stands client i 0 w) (fun e w => Escapes kind e ∧ Stands client i 0 w)
        w :=
    Prog.Endures.throw ((Terms.stable_const _).and (stable_stands 0)) ⟨he, hw⟩
  apply (h w hw).attempt_bind
  · exact fun a _ hw => Prog.Endures.pure ((Terms.stable_const _).and (stable_stands 0)) hw
  · intro e w hw
    simp only
    split
    · exact hthrow (.inl ht) hw
    · split
      · rename_i he
        exact hthrow (.inr (he.imp_right .inl)) hw
      · split
        · exact hthrow (.inr (.inr (.inl hf))) hw
        · rename_i he
          refine hthrow (.inr (.inr (.inr ?_))) hw
          simpa [isException] using he

/-- A program that needs an account, and leaves the session as it finds it. -/
abbrev ServesAccount (client : CodexSdkClient) (i : Nat) (p : Session α) : Prop :=
  Serves client i (Authenticated client i) (fun _ => Authenticated client i)
    (Stands client i {.session}) p

theorem serves_account {c : Call} (hc : c.isShared = false)
    (hl : ∀ log r, Log.after log c r = log)
    (ha : ∀ w, Authenticated client i w → c.Allowed client i w) :
    ServesAccount client i (invoke c) := by
  intro w hw
  exact (serves_untraced hc hl stable_authenticated_within ha w hw).mono (fun _ _ h => h)
    fun _ _ h => h.1.1

theorem Authenticated.allowed {w : World} (hw : Authenticated client i w) :
    (w.staged = true ∧ w.Sane client) ∧ w.Holds i {.session} ∧ (w.logs i).authenticated = true :=
  ⟨⟨hw.1.2, hw.1.1.sane⟩, hw.1.1.holds, hw.2⟩

/-- A turn returns what the SDK's turn is normalized to. -/
theorem serves_runTurn {openThread : Session Text} (t : Turn)
    (ho : ServesAccount client i openThread) :
    Serves client i (Authenticated client i)
      (fun r w => t.Ends (.ok r) ∧ Stands client i {.session} w) (Stands client i {.session})
      (runTurn openThread t.route t.prompt t.structured) := by
  have heffort : ServesAccount client i (invoke (.reasoningEffort t.route.reasoningEffort)) :=
    serves_account rfl (fun _ _ => rfl) fun _ _ => trivial
  have hrun (thread : Text) : ServesAccount client i
      (invoke (.run thread t.prompt t.route.reasoningEffort t.structured)) :=
    serves_account rfl (fun _ _ => rfl) fun _ h => h.allowed
  intro w hw
  apply (ho w hw).bind
  intro thread w hw
  apply (heffort w hw).bind
  intro _ w hw
  apply (hrun thread w hw).bind
  intro turn w hw
  apply Prog.Endures.ofExcept
  · intro r hr
    refine ⟨(Terms.stable_const _).and (stable_stands _), ⟨thread, turn, ?_⟩, hw.1.1⟩
    cases hn : normalizeResult t.route thread turn with
    | ok r' =>
      rw [hn] at hr
      cases hr
      rfl
    | error e =>
      rw [hn] at hr
      cases hr
  · exact fun _ _ => ⟨stable_stands _, hw.1.1⟩

/-- What a request may be answered. -/
def Request.Ends : Request → Response → Prop
  | .models, .models _ => True
  | .turn t, .turn r => t.Ends (.ok r)
  | _, _ => False

def Request.timedOut : Request → ErrorKind
  | .models => .sdkError
  | .turn _ => .turnTimeoutError

theorem serves_availableModels :
    Serves client i (Stands client i 0)
      (fun _ w => True ∧ Stands client i 0 w) (Stands client i 0)
      (withTimeout (client.session (invoke .models))) := by
  have hmodels : ServesAccount client i (invoke .models) :=
    serves_account rfl (fun _ _ => rfl) fun _ h => h.allowed
  apply serves_withTimeout fun _ => (Terms.stable_const _).and (stable_stands 0)
  apply serves_session
  intro w hw
  exact (hmodels w hw).mono (fun _ _ h => ⟨trivial, h.1.1⟩) fun _ _ h => h

theorem serves_turn {openThread : Session Text} {t : Turn}
    (ho : ServesAccount client i openThread) (failed : Text) {w : World}
    (hw : Stands client i 0 w) :
    (translating (turnTimedOut t.route) ⟨.sdkError, failed⟩
      (withTimeout (client.session (runTurn openThread t.route t.prompt t.structured)))).Endures
        (Next i) (terms client i) (fun r w => t.Ends (.ok r) ∧ Stands client i 0 w)
        (fun e w => Escapes .turnTimeoutError e ∧ Stands client i 0 w) w := by
  have hsession := serves_session (serves_runTurn t ho)
  have hstable (r : WorkResult) : (terms client i).Stable fun w =>
      t.Ends (.ok r) ∧ Stands client i 0 w :=
    (Terms.stable_const _).and (stable_stands 0)
  apply serves_translating _ _ (serves_withTimeout hstable hsession) hw
  · rfl
  · rfl

/-- Whatever the other requests do, a request gives back what it takes, and ends as it may. -/
theorem serves_request (request : Request) {w : World} (hw : Stands client i 0 w) :
    (client.serve request).Endures (Next i) (terms client i)
      (fun response w => request.Ends response ∧ Stands client i 0 w)
      (fun e w => Escapes request.timedOut e ∧ Stands client i 0 w) w := by
  cases request with
  | models =>
    rw [serve]
    apply Prog.Endures.bind (Q := fun _ w => True ∧ Stands client i 0 w)
    · apply serves_translating _ _ serves_availableModels hw
      · rfl
      · rfl
    · exact fun _ w hw => Prog.Endures.pure ((Terms.stable_const _).and (stable_stands 0)) hw
  | turn t =>
    have hresume (threadId : Text) : ServesAccount client i
        (invoke (.threadResume threadId (threadOptions t.projectPath t.route))) :=
      serves_account rfl (fun _ _ => rfl) fun _ h => h.allowed
    have hstart (instructions : Text) : ServesAccount client i
        (invoke (.threadStart (threadOptions t.projectPath t.route) instructions)) :=
      serves_account rfl (fun _ _ => rfl) fun _ h => h.allowed
    have hreturn (r : WorkResult) (w : World) (hw : t.Ends (.ok r) ∧ Stands client i 0 w) :
        (pure (.turn r) : Session Response).Endures (Next i) (terms client i)
          (fun response w => (Request.turn t).Ends response ∧ Stands client i 0 w)
          (fun e w => Escapes .turnTimeoutError e ∧ Stands client i 0 w) w :=
      Prog.Endures.pure ((Terms.stable_const _).and (stable_stands 0)) hw
    rw [serve]
    cases ht : t.threadId with
    | none => exact (serves_turn (hstart _) _ hw).bind hreturn
    | some threadId => exact (serves_turn (hresume threadId) _ hw).bind hreturn

end Requests

section Clients

variable {client : CodexSdkClient} {requests : Nat → Request} {qs : Nat → Session Response}
  {w : World} {i j : Nat}

/-- Where the requests to a client can get. -/
abbrev Reaches (client : CodexSdkClient) (requests : Nat → Request)
    (qs : Nat → Session Response) (w : World) : Prop :=
  Interleaves Next Outside (fun i => client.serve (requests i)) (World.initial client) qs w

theorem stands_initial : Stands client i 0 (World.initial client) := by
  refine ⟨.nil, fun hs hc => ?_, by simp [World.initial]⟩
  rw [World.initial, Option.isNone_iff_eq_none] at hs
  rw [hs] at hc
  cases hc

theorem Reaches.endures (h : Reaches client requests qs w) (i : Nat) :
    (qs i).Endures (Next i) (terms client i)
      (fun response w => (requests i).Ends response ∧ Stands client i 0 w)
      (fun e w => Escapes (requests i).timedOut e ∧ Stands client i 0 w) w := by
  apply Interleaves.endures (T := terms client) _ _ _ h
  · exact fun i j w w' hij hg => hg j (Ne.symm hij)
  · exact fun j w w' ho => ho.bears j
  · exact fun i => serves_request (requests i) stands_initial

/-- How a request may end. -/
def Request.Settles (request : Request) : Except Raised Response → Prop
  | .ok response => request.Ends response
  | .error e => Escapes request.timedOut e

/-- Calls that only one request may be about to make. -/
def Call.isExclusive : Call → Bool
  | .setStaged | .releaseStaging | .stage .. => true
  | _ => false

theorem Call.Allowed.holder {c : Call} (h : c.Allowed client i w) (hc : c.isExclusive = true) :
    w.holder = some i := by
  cases c with
  | stage | setStaged => exact h.1
  | releaseStaging => exact h
  | _ => cases hc

/-- A request that has ended has left every session that it entered, and had the streams of its
process closed, once each. -/
theorem requests_released (h : Reaches client requests qs w) (ho : (qs i).outcome? = some x) :
    ReleasedOnce (w.logs i).resources := by
  have hend := (h.endures i).ended ho
  have hstands : Stands client i 0 w := by
    cases x with
    | ok response => exact hend.2
    | error e => exact hend.2
  exact hstands.holds.releasedOnce_iff.2 rfl

/-- A turn returns only what a turn of the SDK is normalized to, and all that a request raises are
the client's own errors and a cancellation. -/
theorem requests_settled (h : Reaches client requests qs w) (ho : (qs i).outcome? = some x) :
    (requests i).Settles x := by
  have hend := (h.endures i).ended ho
  cases x with
  | ok response => exact hend.1
  | error e => exact hend.1

/-- At every point of every run a request is only about to make calls that it may make there, and
no two of them are at the staging of the session. -/
theorem requests_allowed (h : Reaches client requests qs w) (hc : (qs i).call? = some c) :
    c.Allowed client i w ∧ (c.isExclusive = true → ∀ j, j ≠ i → ∀ c', (qs j).call? = some c' →
      c'.isExclusive = false) := by
  have ha : c.Allowed client i w := (h.endures i).allowed hc
  refine ⟨ha, fun hx j hj c' hc' => ?_⟩
  by_contra hx'
  have ha' : c'.Allowed client j w := (h.endures j).allowed hc'
  have hholder := ha'.holder (by simpa using hx')
  rw [ha.holder hx] at hholder
  exact hj (Option.some.inj hholder).symm

end Clients

section Sample

def sampleClient : CodexSdkClient where
  authMode := .existingSession
  apiKey := none
  environ _ := none
  codexHome := some (PurePath.ofText (text "/codex"), PurePath.ofText (text "/staging"))
  codexBin := none

def sampleRequests : Nat → Request
  | 0 => .turn ⟨.planner, none, PurePath.ofText (text "/p"),
      ⟨text "work", text "base", text "model", text "low", .readOnly, .automatic, 600, 1, false,
        false, none, .planner, []⟩, text "Go", some [], false⟩
  | _ => .models

/-- What the sample SDK answers: every turn completes, and models are not listed. -/
def sampleReply : (c : Call) → Except Raised (Val c)
  | .isStaged | .expired => .ok false
  | .account => .ok true
  | .models => .error ⟨⟨.other (text "RuntimeError"), []⟩, false, []⟩
  | .threadStart .. | .threadResume .. => .ok (text "thread")
  | .run .. => .ok ⟨text "turn", text "completed", some (text "done"), [], none, PyFloat.one⟩
  | .transportProcess => .ok (some 7)
  | .setStaged | .acquireStaging | .releaseStaging | .stage .. | .connect .. | .enter
  | .loginApiKey _ | .reasoningEffort _ | .exit | .closeOutputStreams _ => .ok ()

def sampleAnswer (i : Nat) (w : World) : (c : Call) → Option (Except Raised (Val c) × World)
  | .isStaged => some (.ok w.staged, w)
  | .setStaged => some (.ok (), { w with staged := true })
  | .acquireStaging => if w.holder = none then some (.ok (), { w with holder := some i }) else none
  | .releaseStaging => some (.ok (), { w with holder := none })
  | .stage .. => some (.ok (), { w with copied := true })
  | c => some (sampleReply c, w.record i c (sampleReply c))

theorem sampleAnswer_next {i : Nat} {w w' : World} {c : Call} {r : Except Raised (Val c)}
    (h : sampleAnswer i w c = some (r, w')) : Next i w c r w' := by
  cases c with
  | acquireStaging =>
    rw [sampleAnswer] at h
    split at h
    · rename_i hh
      cases h
      exact .acquired hh
    · cases h
  | isStaged | setStaged | releaseStaging | stage =>
    cases h
    constructor
  | transportProcess | expired =>
    cases h
    exact .other rfl fun _ => rfl
  | _ =>
    cases h
    exact .other rfl fun ht => by cases ht

/-- The sample requests after calls in some order. -/
def sampleRun (order : List Nat) : (Nat → Session Response) × World :=
  interleave sampleAnswer order (fun i => sampleClient.serve (sampleRequests i))
    (World.initial sampleClient)

theorem sampleRun_reaches (order : List Nat) :
    Reaches sampleClient sampleRequests (sampleRun order).1 (sampleRun order).2 := by
  apply Interleaves.ordered
  · intro i w c r w' h
    exact sampleAnswer_next h
  · exact .refl

/-- Both requests, call by call in turn. -/
def sampleTurns (n : Nat) : List Nat := (List.replicate n [0, 1]).flatten

theorem sample_released :
    let w := (sampleRun (sampleTurns 24)).2
    (w.logs 0).resources = [.acquired .session, .acquired (.streams 7), .released .session,
      .released (.streams 7)] ∧ ReleasedOnce (w.logs 0).resources := by
  have hrun : ((sampleRun (sampleTurns 24)).1 0).outcome?.isSome = true ∧
      ((sampleRun (sampleTurns 24)).2.logs 0).resources = [.acquired .session,
        .acquired (.streams 7), .released .session, .released (.streams 7)] := by
    decide +kernel
  obtain ⟨x, hx⟩ := Option.isSome_iff_exists.1 hrun.1
  exact ⟨hrun.2, requests_released (sampleRun_reaches _) hx⟩

theorem sample_settled :
    ∃ x, ((sampleRun (sampleTurns 24)).1 1).outcome? = some x ∧ x.isOk = false ∧
      (sampleRequests 1).Settles x := by
  have hrun : (((sampleRun (sampleTurns 24)).1 1).outcome?.map Except.isOk) = some false := by
    decide +kernel
  obtain ⟨x, hx, hf⟩ := Option.map_eq_some_iff.1 hrun
  exact ⟨x, hx, hf, requests_settled (sampleRun_reaches _) hx⟩

/-- One request is about to copy the session, and the other waits for the lock. -/
theorem sample_allowed :
    let run := sampleRun (sampleTurns 3)
    let c := .stage (PurePath.ofText (text "/codex")) (PurePath.ofText (text "/staging"))
    (run.1 0).call? = some c ∧ (run.1 1).call? = some .acquireStaging ∧
      c.Allowed sampleClient 0 run.2 := by
  have hrun : ((sampleRun (sampleTurns 3)).1 0).call? =
        some (.stage (PurePath.ofText (text "/codex")) (PurePath.ofText (text "/staging"))) ∧
      ((sampleRun (sampleTurns 3)).1 1).call? = some .acquireStaging := by
    decide +kernel
  exact ⟨hrun.1, hrun.2, (requests_allowed (sampleRun_reaches _) hrun.1).1⟩

end Sample

end CodexSdkClient

end GoalRouter
