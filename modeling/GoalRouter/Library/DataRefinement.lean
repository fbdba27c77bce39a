import GoalRouter.Library.Ownership

namespace Library
set_option autoImplicit true

variable {C : Type} {V : C → Type} {E E' W : Type} {next : Prog.Answers V E W} {w w' : W}

namespace Prog

/-- If the program returns, then with `Q`. -/
def Produces (next : Answers V E W) (p : Prog V E α) (Q : α → W → Prop) (w : W) : Prop :=
  p.Safe next (fun _ => True) Q (fun _ _ => True) w

namespace Produces

variable {p : Prog V E α} {Q : α → W → Prop} {Q' : β → W → Prop}

theorem any (p : Prog V E α) (w : W) : p.Produces next (fun _ _ => True) w := Safe.any p w

theorem mono {Q' : α → W → Prop} (h : p.Produces next Q w) (hQ : ∀ a w, Q a w → Q' a w) :
    p.Produces next Q' w :=
  Safe.mono h hQ fun _ _ h => h

theorem throw (e : E) : (.throw e : Prog V E α).Produces next Q w := trivial

theorem invoke {c : C} {Q : V c → W → Prop} (h : ∀ v w', next w c (.ok v) w' → Q v w') :
    (Prog.invoke c : Prog V E (V c)).Produces next Q w := by
  apply Safe.invoke
  intro r w' hn
  refine ⟨trivial, ?_⟩
  cases r with
  | ok v => exact h v w' hn
  | error e => trivial

theorem bind {f : α → Prog V E β} (h : p.Produces next Q w)
    (hf : ∀ a w, Q a w → (f a).Produces next Q' w) : (p >>= f).Produces next Q' w :=
  Safe.bind h hf

theorem attempt_bind {f : Except E α → Prog V E β} (h : p.Produces next Q w)
    (hQ : ∀ a w, Q a w → (f (.ok a)).Produces next Q' w)
    (hR : ∀ e w, (f (.error e)).Produces next Q' w) :
    (p.attempt >>= f).Produces next Q' w := by
  apply Safe.attempt_bind h
  intro r w hr
  cases r with
  | ok a => exact hQ a w hr
  | error e => exact hR e w

theorem returns (h : p.Produces next Q w) (hs : Steps next p w (.pure a) w') : Q a w' :=
  (Safe.returns h trivial hs).2

end Produces

/-- If the program returns, so does what it refines, with a related value. -/
def Refines (next : Answers V E W) (p : Prog V E α) (x : Except E' α')
    (S : α → α' → W → Prop) (w : W) : Prop :=
  p.Produces next (fun a w => ∃ a', x = .ok a' ∧ S a a' w) w

namespace Refines

variable {p : Prog V E α} {x : Except E' α'} {S : α → α' → W → Prop} {S' : β → β' → W → Prop}

theorem pure {a : α} {a' : α'} (h : S a a' w) :
    (Pure.pure a : Prog V E α).Refines next (.ok a' : Except E' α') S w :=
  ⟨a', rfl, h⟩

theorem throw (e : E) : (.throw e : Prog V E α).Refines next x S w := trivial

theorem mono {S' : α → α' → W → Prop} (h : p.Refines next x S w)
    (hS : ∀ a a' w, S a a' w → S' a a' w) : p.Refines next x S' w := by
  apply Produces.mono h
  intro a w ⟨a', hx, hs⟩
  exact ⟨a', hx, hS a a' w hs⟩

theorem bind {f : α → Prog V E β} {g : α' → Except E' β'} (h : p.Refines next x S w)
    (hf : ∀ a a' w, S a a' w → (f a).Refines next (g a') S' w) :
    (p >>= f).Refines next (x >>= g) S' w := by
  apply Produces.bind h
  intro a w ⟨a', hx, hs⟩
  rw [hx]
  exact hf a a' w hs

theorem after {f : α → Prog V E β} {y : Except E' β'} {Q : α → W → Prop}
    (h : p.Produces next Q w) (hf : ∀ a w, Q a w → (f a).Refines next y S' w) :
    (p >>= f).Refines next y S' w :=
  Produces.bind h hf

/-- A fold over related lists, where each step keeps `I`. -/
theorem foldlM {f : β → α → Prog V E β} {g : β' → α' → Except E' β'} {A : α → α' → Prop}
    {B : β → β' → Prop} {I : W → Prop} {l : List α} {l' : List α'}
    (h : ∀ b b' a a' w, B b b' → A a a' → I w →
      (f b a).Refines next (g b' a') (fun b b' w => B b b' ∧ I w) w)
    (hl : List.Forall₂ A l l') {b : β} {b' : β'} (hb : B b b') (hw : I w) :
    (l.foldlM f b).Refines next (l'.foldlM g b') (fun b b' w => B b b' ∧ I w) w := by
  induction hl generalizing b b' w with
  | nil => exact pure ⟨hb, hw⟩
  | cons ha _ ih =>
    rw [List.foldlM_cons, List.foldlM_cons]
    apply (h _ _ _ _ _ hb ha hw).bind
    exact fun c c' w hc => ih hc.1 hc.2

theorem forM {f : α → Prog V E Unit} {g : α' → Except E' PUnit} {A : α → α' → Prop}
    {I : W → Prop} {l : List α} {l' : List α'}
    (h : ∀ a a' w, A a a' → I w → (f a).Refines next (g a') (fun _ _ => I) w)
    (hl : List.Forall₂ A l l') (hw : I w) :
    (l.forM f).Refines next (l'.forM g) (fun _ _ => I) w := by
  induction hl generalizing w with
  | nil => exact pure hw
  | cons ha _ ih => exact (h _ _ _ ha hw).bind fun _ _ _ hw => ih hw

end Refines

end Prog

namespace TryBlock

/-- If the block gets through, so does what it refines, with a related value. -/
def Refines (next : Prog.Answers V E W) (m : TryBlock V E β α) (x : Except E' α')
    (S : α → α' → List β → W → Prop) (l : List β) (w : W) : Prop :=
  (m l).Produces next (fun out w => ∀ a, out.1 = .ok a → ∃ a', x = .ok a' ∧ S a a' out.2 w) w

namespace Refines

variable {m : TryBlock V E β α} {x : Except E' α'} {S : α → α' → List β → W → Prop} {l : List β}

theorem pure {a : α} {a' : α'} (h : S a a' l w) :
    TryBlock.Refines next (Pure.pure a : TryBlock V E β α) (.ok a' : Except E' α') S l w := by
  rintro _ ⟨⟩
  exact ⟨a', rfl, h⟩

theorem raise (e : E) : TryBlock.Refines next (raise e : TryBlock V E β α) x S l w := nofun

theorem mono {S' : α → α' → List β → W → Prop} (h : TryBlock.Refines next m x S l w)
    (hS : ∀ a a' l w, S a a' l w → S' a a' l w) : TryBlock.Refines next m x S' l w := by
  apply Prog.Produces.mono h
  intro out w hout a ha
  obtain ⟨a', hx, hs⟩ := hout a ha
  exact ⟨a', hx, hS a a' out.2 w hs⟩

theorem collected {f : List β → TryBlock V E β α} (h : TryBlock.Refines next (f l) x S l w) :
    TryBlock.Refines next (collected >>= f) x S l w :=
  h

theorem bind {f : α → TryBlock V E β γ} {g : α' → Except E' γ'} {S' : γ → γ' → List β → W → Prop}
    (h : TryBlock.Refines next m x S l w)
    (hf : ∀ a a' l w, S a a' l w → TryBlock.Refines next (f a) (g a') S' l w) :
    TryBlock.Refines next (m >>= f) (x >>= g) S' l w := by
  apply Prog.Produces.bind h
  rintro ⟨r, l⟩ w hr
  cases r with
  | ok a =>
    obtain ⟨a', hx, hs⟩ := hr a rfl
    rw [hx]
    exact hf a a' l w hs
  | error e => exact nofun

theorem collect {f : α → List β} {p : Prog V E α} {Q : α → W → Prop} (h : p.Produces next Q w)
    {g : α → TryBlock V E β γ} {y : Except E' γ'} {S' : γ → γ' → List β → W → Prop}
    (hg : ∀ a w, Q a w → TryBlock.Refines next (g a) y S' (l ++ f a) w) :
    TryBlock.Refines next (collect f p >>= g) y S' l w := by
  apply Prog.Produces.bind (Q := fun out w => ∀ a, out.1 = .ok a → out.2 = l ++ f a ∧ Q a w)
  · apply h.attempt_bind
    · rintro a w hQ _ ⟨⟩
      exact ⟨rfl, hQ⟩
    · exact fun _ _ => nofun
  · rintro ⟨r, l'⟩ w hr
    cases r with
    | ok a =>
      obtain ⟨rfl, hQ⟩ := hr a rfl
      exact hg a w hQ
    | error e => exact nofun

theorem perform {p : Prog V E α} {Q : α → W → Prop} (h : p.Produces next Q w)
    {g : α → TryBlock V E β γ} {y : Except E' γ'} {S' : γ → γ' → List β → W → Prop}
    (hg : ∀ a w, Q a w → TryBlock.Refines next (g a) y S' l w) :
    TryBlock.Refines next (perform p >>= g) y S' l w := by
  apply collect h
  intro a w hQ
  rw [List.append_nil]
  exact hg a w hQ

theorem last {p : Prog V E α} {S : α → α' → W → Prop} (h : p.Refines next x S w) :
    TryBlock.Refines next (TryBlock.perform p : TryBlock V E β α) x
      (fun a a' l' w => l' = l ∧ S a a' w) l w := by
  apply Prog.Produces.attempt_bind h
  · rintro a w ⟨a', hx, hs⟩ _ ⟨⟩
    exact ⟨a', hx, List.append_nil l, hs⟩
  · exact fun _ _ => nofun

end Refines

end TryBlock

end Library
