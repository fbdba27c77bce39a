import GoalRouter.Library.Program
import Mathlib.Logic.Function.Basic

namespace Library
set_option autoImplicit true

variable {C : Type} {V : C → Type} {E W : Type}

/-- What a task expects of the others and promises to them. -/
structure Terms (C W : Type) where
  /-- What the others may do between two of its calls. -/
  rely : W → W → Prop
  /-- What its calls may do to the others. -/
  guarantee : W → W → Prop
  /-- Where a call may be made. -/
  allowed : C → W → Prop
  rely_refl : ∀ w, rely w w
  rely_trans : ∀ w w' w'', rely w w' → rely w' w'' → rely w w''

/-- What the others do not undo. -/
def Terms.Stable (T : Terms C W) (P : W → Prop) : Prop := ∀ w w', T.rely w w' → P w → P w'

namespace Terms

variable {T : Terms C W} {P P' : W → Prop}

theorem Stable.and (h : T.Stable P) (h' : T.Stable P') : T.Stable fun w => P w ∧ P' w :=
  fun w w' hr hw => ⟨h w w' hr hw.1, h' w w' hr hw.2⟩

theorem stable_const (b : Prop) : T.Stable fun _ => b := fun _ _ _ h => h

end Terms

namespace Prog

/-- Whatever the others do, the program calls only where it is allowed, does only what it promises,
returns with `Q` and raises with `R`. -/
def Endures (next : Answers V E W) (T : Terms C W) (Q : α → W → Prop) (R : E → W → Prop) :
    Prog V E α → W → Prop
  | .pure a, w => ∀ w', T.rely w w' → Q a w'
  | .throw e, w => ∀ w', T.rely w w' → R e w'
  | .call c k, w => ∀ w', T.rely w w' → T.allowed c w' ∧
      ∀ r w'', next w' c r w'' → T.guarantee w' w'' ∧ (k r).Endures next T Q R w''

namespace Endures

variable {next : Answers V E W} {T : Terms C W} {Q : α → W → Prop} {R : E → W → Prop}
  {p : Prog V E α} {w w' : W}

theorem stable (h : p.Endures next T Q R w) (hr : T.rely w w') : p.Endures next T Q R w' := by
  cases p with
  | pure a => exact fun w'' hr' => h w'' (T.rely_trans _ _ _ hr hr')
  | throw e => exact fun w'' hr' => h w'' (T.rely_trans _ _ _ hr hr')
  | call c k => exact fun w'' hr' => h w'' (T.rely_trans _ _ _ hr hr')

theorem mono (h : p.Endures next T Q R w) (hQ : ∀ a w, Q a w → Q' a w)
    (hR : ∀ e w, R e w → R' e w) : p.Endures next T Q' R' w := by
  induction p generalizing w with
  | pure a => exact fun w' hr => hQ a w' (h w' hr)
  | throw e => exact fun w' hr => hR e w' (h w' hr)
  | call c k ih =>
    intro w' hr
    obtain ⟨ha, hn⟩ := h w' hr
    exact ⟨ha, fun r w'' hw => ⟨(hn r w'' hw).1, ih r (hn r w'' hw).2⟩⟩

theorem bind {f : α → Prog V E β} {Q' : β → W → Prop} (h : p.Endures next T Q R w)
    (hf : ∀ a w, Q a w → (f a).Endures next T Q' R w) : (p >>= f).Endures next T Q' R w := by
  induction p generalizing w with
  | pure a => exact hf a w (h w (T.rely_refl w))
  | throw e => exact h
  | call c k ih =>
    intro w' hr
    obtain ⟨ha, hn⟩ := h w' hr
    exact ⟨ha, fun r w'' hw => ⟨(hn r w'' hw).1, ih r (hn r w'' hw).2⟩⟩

theorem attempt_bind {f : Except E α → Prog V E β} {Q' : β → W → Prop} {R' : E → W → Prop}
    (h : p.Endures next T Q R w) (hQ : ∀ a w, Q a w → (f (.ok a)).Endures next T Q' R' w)
    (hR : ∀ e w, R e w → (f (.error e)).Endures next T Q' R' w) :
    (p.attempt >>= f).Endures next T Q' R' w := by
  induction p generalizing w with
  | pure a => exact hQ a w (h w (T.rely_refl w))
  | throw e => exact hR e w (h w (T.rely_refl w))
  | call c k ih =>
    intro w' hr
    obtain ⟨ha, hn⟩ := h w' hr
    exact ⟨ha, fun r w'' hw => ⟨(hn r w'' hw).1, ih r (hn r w'' hw).2⟩⟩

theorem pure {a : α} (hs : T.Stable (Q a)) (h : Q a w) :
    (Pure.pure a : Prog V E α).Endures next T Q R w :=
  fun _ hr => hs _ _ hr h

theorem throw {e : E} (hs : T.Stable (R e)) (h : R e w) :
    (.throw e : Prog V E α).Endures next T Q R w :=
  fun _ hr => hs _ _ hr h

theorem ofExcept {x : Except E α} (hQ : ∀ a, x = .ok a → T.Stable (Q a) ∧ Q a w)
    (hR : ∀ e, x = .error e → T.Stable (R e) ∧ R e w) :
    (Prog.ofExcept x : Prog V E α).Endures next T Q R w := by
  cases x with
  | ok a => exact pure (hQ a rfl).1 (hQ a rfl).2
  | error e => exact throw (hR e rfl).1 (hR e rfl).2

theorem invoke {c : C} {Q : V c → W → Prop} {P : W → Prop} (hs : T.Stable P) (hw : P w)
    (ha : ∀ w, P w → T.allowed c w)
    (hn : ∀ w r w', P w → next w c r w' → T.guarantee w w' ∧
      match r with
      | .ok v => T.Stable (Q v) ∧ Q v w'
      | .error e => T.Stable (R e) ∧ R e w') :
    (Prog.invoke c : Prog V E (V c)).Endures next T Q R w := by
  intro w₁ hr
  have hw₁ := hs w w₁ hr hw
  refine ⟨ha w₁ hw₁, fun r w₂ hnext => ?_⟩
  obtain ⟨hg, hend⟩ := hn w₁ r w₂ hw₁ hnext
  refine ⟨hg, ?_⟩
  cases r with
  | ok v => exact pure hend.1 hend.2
  | error e => exact throw hend.1 hend.2

end Endures

/-- The call that a program is about to make. -/
def call? : Prog V E α → Option C
  | .call c _ => some c
  | _ => none

end Prog

section Tasks

variable {ι : Type} [DecidableEq ι] {next : ι → Prog.Answers V E W} {outside : W → W → Prop}
  {ps qs : ι → Prog V E α} {w w' : W}

/-- Tasks that go on in any order, one call at a time, while other things happen too. -/
inductive Interleaves (next : ι → Prog.Answers V E W) (outside : W → W → Prop)
    (ps : ι → Prog V E α) (w : W) : (ι → Prog V E α) → W → Prop where
  | refl : Interleaves next outside ps w ps w
  | call (h : Interleaves next outside ps w qs₁ w₁) (hc : qs₁ i = .call c k)
      (hn : next i w₁ c r w₂) :
      Interleaves next outside ps w (Function.update qs₁ i (k r)) w₂
  | outside (h : Interleaves next outside ps w qs₁ w₁) (ho : outside w₁ w₂) :
      Interleaves next outside ps w qs₁ w₂

variable {T : ι → Terms C W} {Q : ι → α → W → Prop} {R : ι → E → W → Prop}

/-- Tasks that bear what the others promise go on as if they were alone. -/
theorem Interleaves.endures
    (hg : ∀ i j w w', i ≠ j → (T i).guarantee w w' → (T j).rely w w')
    (ho : ∀ j w w', outside w w' → (T j).rely w w')
    (hp : ∀ i, (ps i).Endures (next i) (T i) (Q i) (R i) w)
    (h : Interleaves next outside ps w qs w') :
    ∀ i, (qs i).Endures (next i) (T i) (Q i) (R i) w' := by
  induction h with
  | refl => exact hp
  | @call qs₁ w₁ i c k r w₂ _ hc hn ih =>
    intro j
    have hi := ih i
    rw [hc] at hi
    obtain ⟨_, hcall⟩ := hi w₁ ((T i).rely_refl w₁)
    obtain ⟨hguarantee, hrest⟩ := hcall r w₂ hn
    by_cases hj : j = i
    · subst hj
      rw [Function.update_self]
      exact hrest
    · rw [Function.update_of_ne hj]
      exact (ih j).stable (hg i j _ _ (Ne.symm hj) hguarantee)
  | outside _ hw ih => exact fun j => (ih j).stable (ho j _ _ hw)

/-- A task is only ever about to make a call that is allowed. -/
theorem Prog.Endures.allowed {next : Prog.Answers V E W} {T : Terms C W} {p : Prog V E α}
    {Q : α → W → Prop} {R : E → W → Prop} (h : p.Endures next T Q R w) (hc : p.call? = some c) :
    T.allowed c w := by
  cases p with
  | pure a => cases hc
  | throw e => cases hc
  | call c' k =>
    cases hc
    exact (h w (T.rely_refl w)).1

theorem Prog.Endures.ended {next : Prog.Answers V E W} {T : Terms C W} {p : Prog V E α}
    {Q : α → W → Prop} {R : E → W → Prop} (h : p.Endures next T Q R w)
    (ho : p.outcome? = some x) : match x with | .ok a => Q a w | .error e => R e w := by
  cases p with
  | pure a =>
    cases ho
    exact h w (T.rely_refl w)
  | throw e =>
    cases ho
    exact h w (T.rely_refl w)
  | call c k => cases ho

/-- The members of a list make a call each, where they have one to make and it is answered. -/
def interleave (answer : ι → W → (c : C) → Option (Except E (V c) × W)) :
    List ι → (ι → Prog V E α) → W → (ι → Prog V E α) × W
  | [], ps, w => (ps, w)
  | i :: order, ps, w =>
    match ps i with
    | .call c k =>
      match answer i w c with
      | some (r, w') => interleave answer order (Function.update ps i (k r)) w'
      | none => interleave answer order ps w
    | _ => interleave answer order ps w

theorem Interleaves.ordered {answer : ι → W → (c : C) → Option (Except E (V c) × W)}
    (ha : ∀ i w c r w', answer i w c = some (r, w') → next i w c r w') (order : List ι)
    (h : Interleaves next outside ps w qs w') :
    Interleaves next outside ps w (interleave answer order qs w').1
      (interleave answer order qs w').2 := by
  induction order generalizing qs w' with
  | nil => exact h
  | cons i order ih =>
    rw [interleave]
    split
    · rename_i c k hc
      split
      · rename_i r w'' hr
        exact ih (h.call hc (ha i w' c r w'' hr))
      · exact ih h
    · exact ih h

end Tasks

end Library
