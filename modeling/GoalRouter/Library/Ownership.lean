import GoalRouter.Library.Program
import Mathlib.Algebra.Order.Group.Multiset
import Mathlib.Algebra.BigOperators.Group.Multiset.Basic

namespace Library
set_option autoImplicit true

/-- What happens to a resource. -/
inductive Ownership (ι : Type) where
  | acquired (x : ι)
  | released (x : ι)
  deriving DecidableEq

/-- Nothing is released that is not held, and in the end nothing is held. -/
structure ReleasedOnce [DecidableEq ι] (events : List (Ownership ι)) : Prop where
  held : ∀ p, p <+: events → ∀ x, p.count (.released x) ≤ p.count (.acquired x)
  released : ∀ x, events.count (.released x) = events.count (.acquired x)

/-- What the events leave held, where nothing was released that was not held. -/
inductive Outstanding : List (Ownership ι) → Multiset ι → Prop
  | nil : Outstanding [] 0
  | acquired : Outstanding events held → Outstanding (events ++ [.acquired x]) (x ::ₘ held)
  | released : Outstanding events (x ::ₘ held) → Outstanding (events ++ [.released x]) held

namespace Outstanding

variable [DecidableEq ι] {events : List (Ownership ι)} {held : Multiset ι}

theorem count_eq (h : Outstanding events held) (x : ι) :
    events.count (.acquired x) = events.count (.released x) + held.count x := by
  induction h with
  | nil => rfl
  | @acquired events held y _ ih =>
    rw [List.count_append, List.count_append, List.count_singleton, List.count_singleton, ih,
      Multiset.count_cons]
    by_cases hxy : x = y
    · subst hxy
      simp
      omega
    · have hyx : y ≠ x := Ne.symm hxy
      simp [hxy, hyx]
  | @released events y held _ ih =>
    rw [List.count_append, List.count_append, List.count_singleton, List.count_singleton, ih,
      Multiset.count_cons]
    by_cases hxy : x = y
    · subst hxy
      simp
      omega
    · have hyx : y ≠ x := Ne.symm hxy
      simp [hxy, hyx]

theorem count_le (h : Outstanding events held) :
    ∀ p, p <+: events → ∀ x, p.count (.released x) ≤ p.count (.acquired x) := by
  induction h with
  | nil =>
    intro p hp x
    rw [List.prefix_nil.1 hp]
    exact Nat.le_refl _
  | acquired h ih =>
    intro p hp x
    rcases List.prefix_concat_iff.1 hp with rfl | hp
    · rw [h.acquired.count_eq]
      exact Nat.le_add_right ..
    · exact ih p hp x
  | released h ih =>
    intro p hp x
    rcases List.prefix_concat_iff.1 hp with rfl | hp
    · rw [h.released.count_eq]
      exact Nat.le_add_right ..
    · exact ih p hp x

theorem releasedOnce_iff (h : Outstanding events held) : ReleasedOnce events ↔ held = 0 := by
  constructor
  · intro hr
    rw [Multiset.eq_zero_iff_forall_notMem]
    intro x hx
    have hcount := h.count_eq x
    rw [hr.released x] at hcount
    have hpos := Multiset.count_pos.2 hx
    omega
  · intro hz
    subst hz
    refine ⟨h.count_le, fun x => ?_⟩
    rw [h.count_eq x, Multiset.count_zero, Nat.add_zero]

end Outstanding

namespace Prog

variable {C : Type} {V : C → Type} {E W ι : Type}

/-- From where `r` is held among other things, the program goes on to hold what `Q` says in place
of `r` when it returns, and what `R` says when it raises. -/
def Owns (next : Answers V E W) (Held : W → Multiset ι → Prop) (r : Multiset ι) (p : Prog V E α)
    (Q : α → Multiset ι → Prop) (R : E → Multiset ι → Prop) : Prop :=
  ∀ w s, Held w (s + r) → p.Safe next (fun _ => True)
    (fun a w' => ∃ h, Q a h ∧ Held w' (s + h)) (fun e w' => ∃ h, R e h ∧ Held w' (s + h)) w

variable {next : Answers V E W} {Held : W → Multiset ι → Prop} {r s : Multiset ι}
  {p : Prog V E α} {Q : α → Multiset ι → Prop} {R : E → Multiset ι → Prop}

namespace Owns

theorem pure {a : α} (h : Q a r) : Owns next Held r (.pure a) Q R :=
  fun _ _ hw => ⟨r, h, hw⟩

theorem throw {e : E} (h : R e r) : Owns next Held r (.throw e : Prog V E α) Q R :=
  fun _ _ hw => ⟨r, h, hw⟩

theorem invoke {c : C} {Q : V c → Multiset ι → Prop}
    (h : ∀ w s x w', Held w (s + r) → next w c x w' →
      match x with
      | .ok v => ∃ t, Q v t ∧ Held w' (s + t)
      | .error e => ∃ t, R e t ∧ Held w' (s + t)) :
    Owns next Held r (Prog.invoke c) Q R :=
  fun w s hw => Safe.invoke fun x w' hn => ⟨trivial, h w s x w' hw hn⟩

theorem ofExcept {x : Except E α} (hQ : ∀ a, x = .ok a → Q a r) (hR : ∀ e, x = .error e → R e r) :
    Owns next Held r (ofExcept x) Q R := by
  cases x with
  | ok a => exact pure (hQ a rfl)
  | error e => exact throw (hR e rfl)

theorem mono (h : Owns next Held r p Q R) (hQ : ∀ a h, Q a h → Q' a h)
    (hR : ∀ e h, R e h → R' e h) : Owns next Held r p Q' R' :=
  fun w s hw => (h w s hw).mono (fun _ _ ⟨h, hq, hw⟩ => ⟨h, hQ _ h hq, hw⟩)
    fun _ _ ⟨h, hr, hw⟩ => ⟨h, hR _ h hr, hw⟩

theorem bind {f : α → Prog V E β} {Q' : β → Multiset ι → Prop} (h : Owns next Held r p Q R)
    (hf : ∀ a h, Q a h → Owns next Held h (f a) Q' R) : Owns next Held r (p >>= f) Q' R := by
  intro w s hw
  apply (h w s hw).bind
  intro a w' ⟨h, hq, hw'⟩
  exact hf a h hq w' s hw'

theorem attempt_bind {f : Except E α → Prog V E β} {Q' : β → Multiset ι → Prop}
    {R' : E → Multiset ι → Prop} (h : Owns next Held r p Q R)
    (hQ : ∀ a h, Q a h → Owns next Held h (f (.ok a)) Q' R')
    (hR : ∀ e h, R e h → Owns next Held h (f (.error e)) Q' R') :
    Owns next Held r (p.attempt >>= f) Q' R' := by
  intro w s hw
  apply (h w s hw).attempt_bind
  intro x w' hx
  cases x with
  | ok a =>
    obtain ⟨h, hq, hw'⟩ := hx
    exact hQ a h hq w' s hw'
  | error e =>
    obtain ⟨h, hr, hw'⟩ := hx
    exact hR e h hr w' s hw'

theorem frame (h : Owns next Held r p Q R) (s : Multiset ι) :
    Owns next Held (s + r) p (fun a h => ∃ t, Q a t ∧ h = s + t)
      (fun e h => ∃ t, R e t ∧ h = s + t) := by
  intro w u hw
  rw [← add_assoc] at hw
  apply (h w (u + s) hw).mono
  · intro a w' ⟨t, hq, hw'⟩
    exact ⟨s + t, ⟨t, hq, rfl⟩, add_assoc u s t ▸ hw'⟩
  · intro e w' ⟨t, hr, hw'⟩
    exact ⟨s + t, ⟨t, hr, rfl⟩, add_assoc u s t ▸ hw'⟩

end Owns

/-- A program that raises with nothing, and returns with something. -/
abbrev Acquires (next : Answers V E W) (Held : W → Multiset ι → Prop) (p : Prog V E α)
    (Q : α → Multiset ι → Prop) : Prop :=
  Owns next Held 0 p Q fun _ h => h = 0

/-- A program that keeps nothing. -/
abbrev Neutral (next : Answers V E W) (Held : W → Multiset ι → Prop) (p : Prog V E α) : Prop :=
  Acquires next Held p fun _ h => h = 0

namespace Neutral

theorem pure (a : α) : Neutral next Held (.pure a : Prog V E α) :=
  Owns.pure rfl

theorem throw (e : E) : Neutral next Held (.throw e : Prog V E α) :=
  Owns.throw rfl

theorem ofExcept (x : Except E α) : Neutral next Held (Prog.ofExcept x) :=
  Owns.ofExcept (fun _ _ => rfl) fun _ _ => rfl

/-- What is held stays held. -/
theorem keeps (h : Neutral next Held p) (r : Multiset ι) :
    Owns next Held r p (fun _ h => h = r) fun _ h => h = r := by
  have hf := Owns.frame h r
  rw [add_zero] at hf
  apply hf.mono
  · intro a h ⟨t, ht, hh⟩
    rw [hh, ht, add_zero]
  · intro e h ⟨t, ht, hh⟩
    rw [hh, ht, add_zero]

theorem bind {f : α → Prog V E β} {Q : β → Multiset ι → Prop} (h : Neutral next Held p)
    (hf : ∀ a, Acquires next Held (f a) Q) : Acquires next Held (p >>= f) Q :=
  Owns.bind h fun a _ ht => by
    subst ht
    exact hf a

theorem attempt_bind {f : Except E α → Prog V E β} {Q : β → Multiset ι → Prop}
    (h : Neutral next Held p) (hf : ∀ x, Acquires next Held (f x) Q) :
    Acquires next Held (p.attempt >>= f) Q :=
  Owns.attempt_bind h
    (fun a _ ht => by
      subst ht
      exact hf (.ok a))
    fun e _ ht => by
      subst ht
      exact hf (.error e)

theorem forM {f : α → Prog V E Unit} {l : List α} (h : ∀ a ∈ l, Neutral next Held (f a)) :
    Neutral next Held (l.forM f) := by
  induction l with
  | nil => exact pure ()
  | cons a l ih =>
    change Neutral next Held (f a >>= fun _ => l.forM f)
    exact (h a List.mem_cons_self).bind fun _ => ih fun b hb => h b (List.mem_cons_of_mem a hb)

theorem mapM {f : α → Prog V E β} {l : List α} (h : ∀ a ∈ l, Neutral next Held (f a)) :
    Neutral next Held (l.mapM f) := by
  induction l with
  | nil => exact pure []
  | cons a l ih =>
    rw [List.mapM_cons]
    apply (h a List.mem_cons_self).bind
    intro b
    exact (ih fun c hc => h c (List.mem_cons_of_mem a hc)).bind fun bs => pure (b :: bs)

theorem foldlM {f : β → α → Prog V E β} {l : List α} {b : β}
    (h : ∀ b, ∀ a ∈ l, Neutral next Held (f b a)) : Neutral next Held (l.foldlM f b) := by
  induction l generalizing b with
  | nil => exact pure b
  | cons a l ih =>
    rw [List.foldlM_cons]
    apply (h b a List.mem_cons_self).bind
    intro c
    exact ih fun d x hx => h d x (List.mem_cons_of_mem a hx)

end Neutral

end Prog

/-- The body of a `try` block that appends to a list, which is left as far as the body got. -/
def TryBlock {C : Type} (V : C → Type) (E β α : Type) : Type :=
  List β → Prog V E (Except E α × List β)

namespace TryBlock

variable {C : Type} {V : C → Type} {E W ι β : Type}

def bind (m : TryBlock V E β α) (f : α → TryBlock V E β γ) : TryBlock V E β γ := fun l =>
  m l >>= fun
    | (.ok a, l) => f a l
    | (.error e, l) => .pure (.error e, l)

instance : Monad (TryBlock V E β) where
  pure a := fun l => .pure (.ok a, l)
  bind := bind

def raise (e : E) : TryBlock V E β α := fun l => .pure (.error e, l)

/-- Run a program, and append what it returned. -/
def collect (f : α → List β) (p : Prog V E α) : TryBlock V E β α := fun l =>
  p.attempt >>= fun
    | .ok a => .pure (.ok a, l ++ f a)
    | .error e => .pure (.error e, l)

def perform (p : Prog V E α) : TryBlock V E β α := collect (fun _ => []) p

/-- The list so far. -/
def collected : TryBlock V E β (List β) := fun l => .pure (.ok l, l)

/-- The block holds what its list holds, wherever it ends, and the list only grows. -/
def Collects (next : Prog.Answers V E W) (Held : W → Multiset ι → Prop) (res : β → Multiset ι)
    (m : TryBlock V E β α) (Q : α → List β → Prop) : Prop :=
  ∀ l R, Prog.Owns next Held (l.map res).sum (m l)
    (fun out h => h = (out.2.map res).sum ∧ l <+: out.2 ∧ ∀ a, out.1 = .ok a → Q a out.2) R

variable {next : Prog.Answers V E W} {Held : W → Multiset ι → Prop} {res : β → Multiset ι}
  {m : TryBlock V E β α} {Q : α → List β → Prop}

namespace Collects

theorem pure {a : α} (h : ∀ l, Q a l) : Collects next Held res (Pure.pure a) Q := by
  intro l R
  refine Prog.Owns.pure ⟨rfl, List.prefix_rfl, fun b hb => ?_⟩
  cases hb
  exact h l

theorem raise (e : E) : Collects next Held res (TryBlock.raise e : TryBlock V E β α) Q :=
  fun _ _ => Prog.Owns.pure ⟨rfl, List.prefix_rfl, nofun⟩

theorem bind {f : α → TryBlock V E β γ} {Q' : γ → List β → Prop} {P : α → Prop}
    (h : Collects next Held res m fun a _ => P a)
    (hf : ∀ a, P a → Collects next Held res (f a) Q') : Collects next Held res (m >>= f) Q' := by
  intro l R
  apply (h l R).bind
  rintro ⟨x, l'⟩ t ⟨rfl, hl, hQ⟩
  cases x with
  | ok a =>
    apply (hf a (hQ a rfl) l' R).mono
    · rintro out u ⟨rfl, hl', hQ'⟩
      exact ⟨rfl, hl.trans hl', hQ'⟩
    · exact fun _ _ h => h
  | error e => exact Prog.Owns.pure ⟨rfl, hl, nofun⟩

theorem collect {f : α → List β} {p : Prog V E α} {P : α → Prop}
    (h : Prog.Acquires next Held p fun a h => h = ((f a).map res).sum ∧ P a) :
    Collects next Held res (TryBlock.collect f p) fun a _ => P a := by
  intro l R
  have hf := Prog.Owns.frame h (l.map res).sum
  rw [add_zero] at hf
  apply hf.attempt_bind
  · rintro a t ⟨u, ⟨rfl, hP⟩, rfl⟩
    refine Prog.Owns.pure ⟨?_, List.prefix_append l (f a), fun b hb => ?_⟩
    · rw [List.map_append, List.sum_append]
    · cases hb
      exact hP
  · rintro e t ⟨u, rfl, rfl⟩
    exact Prog.Owns.pure ⟨add_zero _, List.prefix_rfl, nofun⟩

theorem perform {p : Prog V E α} (h : Prog.Neutral next Held p) :
    Collects next Held res (TryBlock.perform p) fun _ _ => True :=
  collect (h.mono (fun _ _ ht => ⟨ht, trivial⟩) fun _ _ ht => ht)

end Collects

end TryBlock

end Library
