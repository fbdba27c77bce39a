namespace Library
set_option autoImplicit true

/-- Programs that call ports, read an answer or an exception, and return or raise. -/
inductive Prog {C : Type} (V : C → Type) (E α : Type) : Type where
  | pure (a : α) : Prog V E α
  | throw (e : E) : Prog V E α
  | call (c : C) (k : Except E (V c) → Prog V E α) : Prog V E α

namespace Prog

variable {C : Type} {V : C → Type} {E W : Type}

def bind : Prog V E α → (α → Prog V E β) → Prog V E β
  | .pure a, f => f a
  | .throw e, _ => .throw e
  | .call c k, f => .call c fun r => (k r).bind f

instance : Monad (Prog V E) where
  pure := .pure
  bind := bind

instance : LawfulMonad (Prog V E) := LawfulMonad.mk' _
  (fun p => by
    induction p with
    | pure a => rfl
    | throw e => rfl
    | call c k ih => exact congrArg (Prog.call c) (funext ih))
  (fun _ _ => rfl)
  (fun p f g => by
    induction p with
    | pure a => rfl
    | throw e => rfl
    | call c k ih => exact congrArg (Prog.call c) (funext ih))

def ofExcept : Except E α → Prog V E α
  | .ok a => .pure a
  | .error e => .throw e

/-- Call a port and re-raise what it raises. -/
def invoke (c : C) : Prog V E (V c) := .call c ofExcept

/-- Run a program and return its exception instead of raising it. -/
def attempt : Prog V E α → Prog V E (Except E α)
  | .pure a => .pure (.ok a)
  | .throw e => .pure (.error e)
  | .call c k => .call c fun r => (k r).attempt

/-- `try ... finally`: an exception of the body wins over one of the final block. -/
def ensure (p : Prog V E α) (fin : Prog V E Unit) : Prog V E α :=
  p.attempt >>= fun
    | .ok a => fin >>= fun _ => .pure a
    | .error e => fin.attempt >>= fun _ => .throw e

/-- Run a program, and raise another exception in place of its own. -/
def orThrow (p : Prog V E α) (e : E) : Prog V E α :=
  p.attempt >>= fun
    | .ok a => .pure a
    | .error _ => .throw e

/-- The same program, with its calls made as calls of another port. -/
def embed {C' : Type} {V' : C' → Type} (f : C → C') (read : ∀ c, V' (f c) → V c) :
    Prog V E α → Prog V' E α
  | .pure a => .pure a
  | .throw e => .throw e
  | .call c k => .call (f c) fun r => (k (r.map (read c))).embed f read

/-- How a world answers a call: the answer and the world after it. -/
abbrev Answers (V : C → Type) (E W : Type) := W → (c : C) → Except E (V c) → W → Prop

variable {next : Answers V E W}

/-- Every point an execution can be at: what is left of the program, and the world there. -/
inductive Steps {α : Type} (next : Answers V E W) : Prog V E α → W → Prog V E α → W → Prop where
  | refl : Steps next p w p w
  | call : next w c r w₁ → Steps next (k r) w₁ q w' → Steps next (.call c k) w q w'

theorem Steps.trans {p q q' : Prog V E α} (h : Steps next p w q w')
    (h' : Steps next q w' q' w'') : Steps next p w q' w'' := by
  induction h with
  | refl => exact h'
  | call hn _ ih => exact .call hn (ih h')

/-- What no step brings about held from the start. -/
theorem Steps.back {p q : Prog V E α} {F : W → Prop} (h : Steps next p w q w')
    (hF : ∀ w c r w', next w c r w' → F w' → F w) (hw : F w') : F w := by
  induction h with
  | refl => exact hw
  | call hn _ ih => exact hF _ _ _ _ hn (ih hw)

theorem Steps.keeps {p q : Prog V E α} {F : W → Prop} (h : Steps next p w q w')
    (hF : ∀ w c r w', next w c r w' → F w → F w') (hw : F w) : F w' := by
  induction h with
  | refl => exact hw
  | call hn _ ih => exact ih (hF _ _ _ _ hn hw)

theorem Steps.bind {p q : Prog V E α} (h : Steps next p w q w') (f : α → Prog V E β) :
    Steps next (p >>= f) w (q >>= f) w' := by
  induction h with
  | refl => exact .refl
  | call hn _ ih => exact .call hn ih

theorem Steps.seq {p : Prog V E α} {f : α → Prog V E β} {q : Prog V E β}
    (h : Steps next p w (.pure a) w') (h' : Steps next (f a) w' q w'') :
    Steps next (p >>= f) w q w'' :=
  (h.bind f).trans h'

theorem Steps.attempt {p q : Prog V E α} (h : Steps next p w q w') :
    Steps next p.attempt w q.attempt w' := by
  induction h with
  | refl => exact .refl
  | call hn _ ih => exact .call hn ih

theorem Steps.answer {c : C} {v : V c} {f : V c → Prog V E α} (hn : next w c (.ok v) w')
    (h : Steps next (f v) w' q w'') : Steps next (Prog.invoke c >>= f) w q w'' :=
  .call hn h

/-- The program keeps `I` at every point, returns only with `Q` and raises only with `R`. -/
def Safe (next : Answers V E W) (I : W → Prop) (Q : α → W → Prop) (R : E → W → Prop) :
    Prog V E α → W → Prop
  | .pure a, w => Q a w
  | .throw e, w => R e w
  | .call c k, w => ∀ r w', next w c r w' → I w' ∧ (k r).Safe next I Q R w'

variable {I : W → Prop} {Q : α → W → Prop} {R : E → W → Prop}

theorem Safe.mono {p : Prog V E α} (h : p.Safe next I Q R w)
    (hQ : ∀ a w, Q a w → Q' a w) (hR : ∀ e w, R e w → R' e w) : p.Safe next I Q' R' w := by
  induction p generalizing w with
  | pure a => exact hQ a w h
  | throw e => exact hR e w h
  | call c k ih => exact fun r w' hn => ⟨(h r w' hn).1, ih r (h r w' hn).2⟩

theorem Safe.bind {p : Prog V E α} {f : α → Prog V E β} {Q' : β → W → Prop}
    (h : p.Safe next I Q R w) (hf : ∀ a w, Q a w → (f a).Safe next I Q' R w) :
    (p >>= f).Safe next I Q' R w := by
  induction p generalizing w with
  | pure a => exact hf a w h
  | throw e => exact h
  | call c k ih => exact fun r w' hn => ⟨(h r w' hn).1, ih r (h r w' hn).2⟩

theorem Safe.invoke {c : C} {Q : V c → W → Prop}
    (h : ∀ r w', next w c r w' → I w' ∧ match r with | .ok v => Q v w' | .error e => R e w') :
    (invoke c : Prog V E (V c)).Safe next I Q R w := by
  intro r w' hn
  refine ⟨(h r w' hn).1, ?_⟩
  have hr := (h r w' hn).2
  cases r with
  | ok v => exact hr
  | error e => exact hr

theorem Safe.ofExcept {x : Except E α} (hQ : ∀ a, x = .ok a → Q a w)
    (hR : ∀ e, x = .error e → R e w) : (ofExcept x : Prog V E α).Safe next I Q R w := by
  cases x with
  | ok a => exact hQ a rfl
  | error e => exact hR e rfl

theorem Safe.attempt {p : Prog V E α} (h : p.Safe next I Q R w) :
    p.attempt.Safe next I (fun r w => match r with | .ok a => Q a w | .error e => R e w)
      (fun _ _ => False) w := by
  induction p generalizing w with
  | pure a => exact h
  | throw e => exact h
  | call c k ih => exact fun r w' hn => ⟨(h r w' hn).1, ih r (h r w' hn).2⟩

/-- A program goes on with the outcome of another, whichever it is. -/
theorem Safe.attempt_bind {p : Prog V E α} {f : Except E α → Prog V E β} {Q' : β → W → Prop}
    {R' : E → W → Prop} (h : p.Safe next I Q R w)
    (hf : ∀ r w, (match r with | .ok a => Q a w | .error e => R e w) →
      (f r).Safe next I Q' R' w) : (p.attempt >>= f).Safe next I Q' R' w :=
  (h.attempt.mono (fun _ _ h => h) fun _ _ h => h.elim).bind hf

/-- A final block that runs from wherever the body ends, and keeps its outcome. -/
theorem Safe.ensure {p : Prog V E α} {fin : Prog V E Unit} {Q' : α → W → Prop} {R' : E → W → Prop}
    (h : p.Safe next I Q R w)
    (hQ : ∀ a w, Q a w → fin.Safe next I (fun _ w => Q' a w) R' w)
    (hR : ∀ e w, R e w → fin.Safe next I (fun _ w => R' e w) (fun _ w => R' e w) w) :
    (p.ensure fin).Safe next I Q' R' w := by
  apply h.attempt_bind
  intro r w' hr
  cases r with
  | ok a => exact (hQ a w' hr).bind fun _ _ h => h
  | error e =>
    apply (hR e w' hr).attempt_bind
    intro r w'' hr'
    cases r <;> exact hr'

theorem Safe.orThrow {p : Prog V E α} {R' : E → W → Prop} (h : p.Safe next I Q R w)
    (hR : ∀ e' w, R e' w → R' e w) : (p.orThrow e).Safe next I Q R' w := by
  apply h.attempt_bind
  intro r w' hr
  cases r with
  | ok a => exact hr
  | error e' => exact hR e' w' hr

theorem Safe.steps {p q : Prog V E α} (h : p.Safe next I Q R w) (hI : I w)
    (hs : Steps next p w q w') : I w' ∧ q.Safe next I Q R w' := by
  induction hs with
  | refl => exact ⟨hI, h⟩
  | call hn _ ih => exact ih (h _ _ hn).2 (h _ _ hn).1

theorem Safe.returns {p : Prog V E α} (h : p.Safe next I Q R w) (hI : I w)
    (hs : Steps next p w (.pure a) w') : I w' ∧ Q a w' :=
  h.steps hI hs

/-- What every answer keeps, every program keeps. -/
theorem Safe.keeps {F : W → Prop} (hF : ∀ w c r w', next w c r w' → F w → F w') (p : Prog V E α)
    (hw : F w) : p.Safe next F (fun _ => F) (fun _ => F) w := by
  induction p generalizing w with
  | pure a => exact hw
  | throw e => exact hw
  | call c k ih =>
    intro r w' hn
    have hw' := hF w c r w' hn hw
    exact ⟨hw', ih r hw'⟩

theorem Safe.any (p : Prog V E α) (w : W) :
    p.Safe next (fun _ => True) (fun _ _ => True) (fun _ _ => True) w :=
  Safe.keeps (fun _ _ _ _ _ h => h) p trivial

theorem Safe.weaken {p : Prog V E α} {I' : W → Prop} (h : p.Safe next I Q R w)
    (hI : ∀ w, I w → I' w) : p.Safe next I' Q R w := by
  induction p generalizing w with
  | pure a => exact h
  | throw e => exact h
  | call c k ih => exact fun r w' hn => ⟨hI w' (h r w' hn).1, ih r (h r w' hn).2⟩

/-- `J` holds wherever the program is about to call. -/
def Calls (next : Answers V E W) (J : W → Prop) : Prog V E α → W → Prop
  | .pure _, _ => True
  | .throw _, _ => True
  | .call c k, w => J w ∧ ∀ r w', next w c r w' → (k r).Calls next J w'

section Calls

variable {J : W → Prop}

theorem Safe.calls {p : Prog V E α} (h : p.Safe next J Q R w) (hJ : J w) : p.Calls next J w := by
  induction p generalizing w with
  | pure a => trivial
  | throw e => trivial
  | call c k ih => exact ⟨hJ, fun r w' hn => ih r (h r w' hn).2 (h r w' hn).1⟩

theorem Calls.invoke {c : C} (hJ : J w) : (invoke c : Prog V E (V c)).Calls next J w := by
  refine ⟨hJ, fun r w' _ => ?_⟩
  cases r <;> trivial

theorem Calls.bind {p : Prog V E α} {f : α → Prog V E β} (hc : p.Calls next J w)
    (h : p.Safe next I Q R w) (hf : ∀ a w, Q a w → (f a).Calls next J w) :
    (p >>= f).Calls next J w := by
  induction p generalizing w with
  | pure a => exact hf a w h
  | throw e => trivial
  | call c k ih => exact ⟨hc.1, fun r w' hn => ih r (hc.2 r w' hn) (h r w' hn).2⟩

theorem Calls.attempt_bind {p : Prog V E α} {f : Except E α → Prog V E β}
    (hc : p.Calls next J w) (h : p.Safe next I Q R w)
    (hf : ∀ r w, (match r with | .ok a => Q a w | .error e => R e w) → (f r).Calls next J w) :
    (p.attempt >>= f).Calls next J w := by
  induction p generalizing w with
  | pure a => exact hf (.ok a) w h
  | throw e => exact hf (.error e) w h
  | call c k ih => exact ⟨hc.1, fun r w' hn => ih r (hc.2 r w' hn) (h r w' hn).2⟩

end Calls

/-- Every call that the program may ever make satisfies `p`. -/
def Only (p : C → Prop) : Prog V E α → Prop
  | .pure _ => True
  | .throw _ => True
  | .call c k => p c ∧ ∀ r, (k r).Only p

section Only

variable {p : C → Prop}

theorem Only.invoke {c : C} (hc : p c) : (invoke c : Prog V E (V c)).Only p := by
  refine ⟨hc, fun r => ?_⟩
  cases r <;> trivial

theorem Only.ofExcept (x : Except E α) : (ofExcept x : Prog V E α).Only p := by
  cases x <;> trivial

theorem Only.bind {q : Prog V E α} {f : α → Prog V E β} (h : q.Only p) (hf : ∀ a, (f a).Only p) :
    (q >>= f).Only p := by
  induction q with
  | pure a => exact hf a
  | throw e => trivial
  | call c k ih => exact ⟨h.1, fun r => ih r (h.2 r)⟩

theorem Only.attempt {q : Prog V E α} (h : q.Only p) : q.attempt.Only p := by
  induction q with
  | pure a => trivial
  | throw e => trivial
  | call c k ih => exact ⟨h.1, fun r => ih r (h.2 r)⟩

theorem Only.mono {p' : C → Prop} {q : Prog V E α} (h : q.Only p) (hp : ∀ c, p c → p' c) :
    q.Only p' := by
  induction q with
  | pure a => trivial
  | throw e => trivial
  | call c k ih => exact ⟨hp c h.1, fun r => ih r (h.2 r)⟩

theorem Only.foldlM {f : α → β → Prog V E α} (hf : ∀ a b, (f a b).Only p) (bs : List β) (a : α) :
    (bs.foldlM f a).Only p := by
  induction bs generalizing a with
  | nil => trivial
  | cons b bs ih =>
    apply (hf a b).bind
    exact fun a => ih a

/-- What the answers to the calls of a program keep, the program keeps. -/
theorem Only.safe {q : Prog V E α} {F : W → Prop} (h : q.Only p)
    (hF : ∀ w c r w', p c → next w c r w' → F w → F w') (hw : F w) :
    q.Safe next F (fun _ => F) (fun _ => F) w := by
  induction q generalizing w with
  | pure a => exact hw
  | throw e => exact hw
  | call c k ih =>
    intro r w' hn
    have hw' := hF w c r w' h.1 hn hw
    exact ⟨hw', ih r (h.2 r) hw'⟩

end Only

/-- What holds however a world answers holds if it answers in fewer ways. -/
theorem Safe.restrict {p : Prog V E α} {next' : Answers V E W} (h : p.Safe next I Q R w)
    (hn : ∀ w c r w', next' w c r w' → next w c r w') : p.Safe next' I Q R w := by
  induction p generalizing w with
  | pure a => exact h
  | throw e => exact h
  | call c k ih =>
    intro r w' hr
    have hs := h r w' (hn w c r w' hr)
    exact ⟨hs.1, ih r hs.2⟩

section Embed

variable {C' W' : Type} {V' : C' → Type} {f : C → C'} {read : ∀ c, V' (f c) → V c}
  {next' : Answers V' E W'}

/-- A program within a larger world is safe if its part of that world answers as its own does. -/
theorem Safe.embed {p : Prog V E α} {view : W' → W → Prop} (h : p.Safe next I Q R w)
    (hv : ∀ w' w c r w'', view w' w → next' w' (f c) r w'' →
      ∃ w₁, view w'' w₁ ∧ next w c (r.map (read c)) w₁) {w' : W'} (hw : view w' w) :
    (p.embed f read).Safe next' (fun w' => ∃ w, view w' w ∧ I w)
      (fun a w' => ∃ w, view w' w ∧ Q a w) (fun e w' => ∃ w, view w' w ∧ R e w) w' := by
  induction p generalizing w w' with
  | pure a => exact ⟨w, hw, h⟩
  | throw e => exact ⟨w, hw, h⟩
  | call c k ih =>
    intro r w'' hr
    obtain ⟨w₁, hw₁, hn⟩ := hv w' w c r w'' hw hr
    have hs := h _ w₁ hn
    exact ⟨⟨w₁, hw₁, hs.1⟩, ih _ hs.2 hw₁⟩

/-- What a program can do, it can do within a larger world. -/
theorem Steps.embed {p q : Prog V E α} {put : W → W'} (h : Steps next p w q w₁)
    (hp : ∀ w c r w₁, next w c r w₁ →
      ∃ r', r'.map (read c) = r ∧ next' (put w) (f c) r' (put w₁)) :
    Steps next' (p.embed f read) (put w) (q.embed f read) (put w₁) := by
  induction h with
  | refl => exact .refl
  | call hn _ ih =>
    obtain ⟨r', rfl, hr⟩ := hp _ _ _ _ hn
    exact .call hr ih

end Embed

theorem Safe.and {p : Prog V E α} {I' : W → Prop} {Q' : α → W → Prop} {R' : E → W → Prop}
    (h : p.Safe next I Q R w) (h' : p.Safe next I' Q' R' w) :
    p.Safe next (fun w => I w ∧ I' w) (fun a w => Q a w ∧ Q' a w)
      (fun e w => R e w ∧ R' e w) w := by
  induction p generalizing w with
  | pure a => exact ⟨h, h'⟩
  | throw e => exact ⟨h, h'⟩
  | call c k ih =>
    intro r w' hn
    exact ⟨⟨(h r w' hn).1, (h' r w' hn).1⟩, ih r (h r w' hn).2 (h' r w' hn).2⟩

/-- The one execution in which the world answers by a function, up to where it does not. -/
def exec (answer : W → (c : C) → Option (Except E (V c) × W)) : Prog V E α → W → Prog V E α × W
  | .pure a, w => (.pure a, w)
  | .throw e, w => (.throw e, w)
  | .call c k, w => match answer w c with
    | some (r, w') => (k r).exec answer w'
    | none => (.call c k, w)

/-- The first world of that execution that is as sought. -/
def execUntil (found : W → Bool) (answer : W → (c : C) → Option (Except E (V c) × W)) :
    Prog V E α → W → Option W
  | .pure _, w => if found w then some w else none
  | .throw _, w => if found w then some w else none
  | .call c k, w =>
    if found w then some w
    else match answer w c with
      | some (r, w') => (k r).execUntil found answer w'
      | none => none

/-- What a program has returned. -/
def value? : Prog V E α → Option α
  | .pure a => some a
  | _ => none

theorem value?_eq_some {p : Prog V E α} : p.value? = some a ↔ p = .pure a := by
  cases p <;> simp [value?]

/-- How a program has ended, if it has. -/
def outcome? : Prog V E α → Option (Except E α)
  | .pure a => some (.ok a)
  | .throw e => some (.error e)
  | .call _ _ => none

theorem Safe.ends {p q : Prog V E α} (h : p.Safe next I Q R w) (hI : I w)
    (hs : Steps next p w q w') (ho : q.outcome? = some x) :
    match x with | .ok a => Q a w' | .error e => R e w' := by
  have hq := (h.steps hI hs).2
  cases q <;> cases ho <;> exact hq

theorem exists_end (ha : ∀ w c, ∃ r w', next w c r w') (p : Prog V E α) (w : W) :
    ∃ q w', Steps next p w q w' ∧ q.outcome?.isSome := by
  induction p generalizing w with
  | pure a => exact ⟨.pure a, w, .refl, rfl⟩
  | throw e => exact ⟨.throw e, w, .refl, rfl⟩
  | call c k ih =>
    obtain ⟨r, w', hn⟩ := ha w c
    obtain ⟨q, w'', hs, hq⟩ := ih r w'
    exact ⟨q, w'', .call hn hs, hq⟩

theorem exec_steps {answer : W → (c : C) → Option (Except E (V c) × W)}
    (ha : ∀ w c r w', answer w c = some (r, w') → next w c r w') (p : Prog V E α) (w : W) :
    Steps next p w (p.exec answer w).1 (p.exec answer w).2 := by
  induction p generalizing w with
  | pure a => exact .refl
  | throw e => exact .refl
  | call c k ih =>
    rw [exec]
    cases hr : answer w c with
    | none => exact .refl
    | some v => exact .call (ha w c v.1 v.2 hr) (ih _ _)

theorem execUntil_some {found : W → Bool} {answer : W → (c : C) → Option (Except E (V c) × W)}
    {p : Prog V E α} (h : p.execUntil found answer w = some w') :
    found w' = true ∧ ∃ q : Prog V E α, p.exec answer w = q.exec answer w' := by
  have hhere {p : Prog V E α} {w : W} (hf : found w = true) (he : w = w') :
      found w' = true ∧ ∃ q : Prog V E α, p.exec answer w = q.exec answer w' :=
    ⟨he ▸ hf, p, by rw [he]⟩
  induction p generalizing w with
  | pure a =>
    rw [execUntil] at h
    split at h
    · rename_i hf
      exact hhere hf (Option.some.inj h)
    · cases h
  | throw e =>
    rw [execUntil] at h
    split at h
    · rename_i hf
      exact hhere hf (Option.some.inj h)
    · cases h
  | call c k ih =>
    rw [execUntil] at h
    split at h
    · rename_i hf
      exact hhere hf (Option.some.inj h)
    · cases hr : answer w c with
      | none =>
        rw [hr] at h
        cases h
      | some v =>
        rw [hr] at h
        rw [exec, hr]
        exact ih _ h

end Prog

end Library
