import GoalRouter.Library.Program

namespace Library
set_option autoImplicit true

namespace Prog

variable {C : Type} {V : C → Type} {E W : Type} {next : Answers V E W}

/-- However the world answers, it does answer, and the program returns in the end, with `Q`. -/
def Completes (next : Answers V E W) (Q : α → W → Prop) : Prog V E α → W → Prop
  | .pure a, w => Q a w
  | .throw _, _ => False
  | .call c k, w =>
    (∃ r w', next w c r w') ∧ ∀ r w', next w c r w' → (k r).Completes next Q w'

variable {Q : α → W → Prop}

theorem Completes.mono {p : Prog V E α} (h : p.Completes next Q w)
    (hQ : ∀ a w, Q a w → Q' a w) : p.Completes next Q' w := by
  induction p generalizing w with
  | pure a => exact hQ a w h
  | throw e => exact h
  | call c k ih => exact ⟨h.1, fun r w' hn => ih r (h.2 r w' hn)⟩

theorem Completes.bind {p : Prog V E α} {f : α → Prog V E β} {Q' : β → W → Prop}
    (h : p.Completes next Q w) (hf : ∀ a w, Q a w → (f a).Completes next Q' w) :
    (p >>= f).Completes next Q' w := by
  induction p generalizing w with
  | pure a => exact hf a w h
  | throw e => exact h.elim
  | call c k ih => exact ⟨h.1, fun r w' hn => ih r (h.2 r w' hn)⟩

theorem Completes.invoke {c : C} {Q : V c → W → Prop} (ha : ∃ r w', next w c r w')
    (h : ∀ r w', next w c r w' → ∃ v, r = .ok v ∧ Q v w') :
    (invoke c : Prog V E (V c)).Completes next Q w := by
  refine ⟨ha, fun r w' hn => ?_⟩
  obtain ⟨v, rfl, hv⟩ := h r w' hn
  exact hv

theorem Completes.attempt {p : Prog V E α} (h : p.Completes next Q w) :
    p.attempt.Completes next (fun r w => ∃ a, r = .ok a ∧ Q a w) w := by
  induction p generalizing w with
  | pure a => exact ⟨a, rfl, h⟩
  | throw e => exact h.elim
  | call c k ih => exact ⟨h.1, fun r w' hn => ih r (h.2 r w' hn)⟩

theorem Completes.ensure {p : Prog V E α} {fin : Prog V E Unit} {Q' : α → W → Prop}
    (h : p.Completes next Q w) (hf : ∀ a w, Q a w → fin.Completes next (fun _ w => Q' a w) w) :
    (p.ensure fin).Completes next Q' w := by
  apply h.attempt.bind
  rintro _ w' ⟨a, rfl, hw⟩
  exact (hf a w' hw).bind fun _ _ h => h

theorem Completes.steps {p q : Prog V E α} (h : p.Completes next Q w) (hs : Steps next p w q w') :
    q.Completes next Q w' := by
  induction hs with
  | refl => exact h
  | call hn _ ih => exact ih (h.2 _ _ hn)

theorem Completes.returns {p : Prog V E α} (h : p.Completes next Q w) :
    ∃ a w', Steps next p w (.pure a) w' ∧ Q a w' := by
  induction p generalizing w with
  | pure a => exact ⟨a, w, .refl, h⟩
  | throw e => exact h.elim
  | call c k ih =>
    obtain ⟨⟨r, w', hn⟩, hk⟩ := h
    obtain ⟨a, w'', hs, hq⟩ := ih r (hk r w' hn)
    exact ⟨a, w'', .call hn hs, hq⟩

end Prog

end Library
