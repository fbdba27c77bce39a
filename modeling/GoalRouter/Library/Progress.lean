namespace Library
set_option autoImplicit true

/-- Every run comes to a state of that kind, and none stops before. -/
inductive Eventually (step : α → α → Prop) (P : α → Prop) : α → Prop
  | now (h : P s) : Eventually step P s
  | next (hp : ∃ s', step s s') (hs : ∀ s', step s s' → Eventually step P s') : Eventually step P s

variable {step : α → α → Prop} {P I : α → Prop}

theorem Eventually.mono (h : Eventually step P s) (hP : ∀ s, P s → Q s) : Eventually step Q s := by
  induction h with
  | now h => exact .now (hP _ h)
  | next hp _ ih => exact .next hp ih

/-- Where an invariant leaves a step to take, and every step lowers a measure, the end is reached,
with the invariant. -/
theorem eventually_of_measure (measure : α → Nat) (hI : ∀ s s', I s → step s s' → I s')
    (hp : ∀ s, I s → ¬P s → ∃ s', step s s')
    (hd : ∀ s s', I s → ¬P s → step s s' → measure s' < measure s) (h : I s) :
    Eventually step (fun s => P s ∧ I s) s := by
  induction hn : measure s using Nat.strongRecOn generalizing s with
  | _ n ih =>
    by_cases hP : P s
    · exact .now ⟨hP, h⟩
    · refine .next (hp s h hP) fun s' hs => ?_
      have hlt := hd s s' h hP hs
      exact ih _ (hn ▸ hlt) (hI s s' h hs) rfl

end Library
