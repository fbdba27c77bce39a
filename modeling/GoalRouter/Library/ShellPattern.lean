import GoalRouter.Library.Text

namespace Library
set_option autoImplicit true

/-- A part of a bracket expression of a shell pattern. -/
inductive BracketMember where
  | single (c : CodePoint)
  | range (first last : CodePoint)
  | characterClass (name : Text)

/-- The characters of a named class of the POSIX locale. -/
def inClass (name : Text) (c : CodePoint) : Bool :=
  let upper := 0x41 ≤ c.val && c.val ≤ 0x5A
  let lower := 0x61 ≤ c.val && c.val ≤ 0x7A
  let digit := 0x30 ≤ c.val && c.val ≤ 0x39
  let blank := c.val = 0x20 || c.val = 0x09
  let graph := 0x21 ≤ c.val && c.val ≤ 0x7E
  if name = text "upper" then upper
  else if name = text "lower" then lower
  else if name = text "alpha" then upper || lower
  else if name = text "digit" then digit
  else if name = text "alnum" then upper || lower || digit
  else if name = text "xdigit" then
    digit || (0x41 ≤ c.val && c.val ≤ 0x46) || (0x61 ≤ c.val && c.val ≤ 0x66)
  else if name = text "blank" then blank
  else if name = text "space" then blank || (0x0A ≤ c.val && c.val ≤ 0x0D)
  else if name = text "graph" then graph
  else if name = text "print" then graph || c.val = 0x20
  else if name = text "punct" then graph && !(upper || lower || digit)
  else if name = text "cntrl" then c.val ≤ 0x1F || c.val = 0x7F
  else false

def BracketMember.admits : BracketMember → CodePoint → Bool
  | .single d, c => d = c
  | .range first last, c => first ≤ c && c ≤ last
  | .characterClass name, c => inClass name c

/-- One character of a pattern, or any number of any. -/
inductive PatternItem where
  | exactly (c : CodePoint)
  | anyOne
  | anyMany
  | bracket (negated : Bool) (members : List BracketMember)
  /-- What follows a last backslash matches nothing. -/
  | nothing

def PatternItem.admits : PatternItem → CodePoint → Bool
  | .exactly d, c => d = c
  | .bracket negated members, c => (members.any fun m => m.admits c) != negated
  | .nothing, _ => false
  | _, _ => true

/-- What stands before and after the first `mark` followed by a closing bracket. -/
def untilMark (mark : CodePoint) : Text → Option (Text × Text)
  | c :: 0x5D :: rest =>
    if c = mark then some ([], rest)
    else (untilMark mark (0x5D :: rest)).map fun r => (c :: r.1, r.2)
  | c :: rest => (untilMark mark rest).map fun r => (c :: r.1, r.2)
  | [] => none

/-- The members of a bracket expression up to its closing bracket, and what follows it. -/
def parseMembers : Nat → Bool → Text → Option (List BracketMember × Text)
  | 0, _, _ => none
  | fuel + 1, first, t =>
    let before (m : BracketMember) (rest : Text) :=
      (parseMembers fuel false rest).map fun r => (m :: r.1, r.2)
    let ranged (c : CodePoint) (rest : Text) := match rest with
      | 0x2D :: 0x5D :: _ => before (.single c) rest
      | 0x2D :: 0x5C :: last :: rest => before (.range c last) rest
      | 0x2D :: 0x5B :: 0x2E :: symbol => match untilMark 0x2E symbol with
        | some ([last], rest) => before (.range c last) rest
        | _ => before (.range c 0x5B) (0x2E :: symbol)
      | 0x2D :: last :: rest => before (.range c last) rest
      | _ => before (.single c) rest
    match t with
    | [] => none
    | 0x5D :: rest => if first then ranged 0x5D rest else some ([], rest)
    | 0x5B :: 0x3A :: rest => match untilMark 0x3A rest with
      | some (name, rest) => before (.characterClass name) rest
      | none => ranged 0x5B (0x3A :: rest)
    | 0x5B :: 0x3D :: rest => match untilMark 0x3D rest with
      | some ([c], rest) => before (.single c) rest
      | _ => ranged 0x5B (0x3D :: rest)
    | 0x5B :: 0x2E :: rest => match untilMark 0x2E rest with
      | some ([c], rest) => ranged c rest
      | _ => ranged 0x5B (0x2E :: rest)
    | 0x5C :: c :: rest => ranged c rest
    | c :: rest => ranged c rest

/-- The bracket expression that the text after an opening bracket is the rest of. -/
def parseBracket (t : Text) : Option (PatternItem × Text) :=
  match t with
  | 0x21 :: rest | 0x5E :: rest =>
    (parseMembers (t.length + 1) true rest).map fun r => (.bracket true r.1, r.2)
  | _ => (parseMembers (t.length + 1) true t).map fun r => (.bracket false r.1, r.2)

def parseItems : Nat → Text → List PatternItem
  | 0, _ => []
  | fuel + 1, t => match t with
    | [] => []
    | 0x2A :: rest => .anyMany :: parseItems fuel rest
    | 0x3F :: rest => .anyOne :: parseItems fuel rest
    | [0x5C] => [.nothing]
    | 0x5C :: c :: rest => .exactly c :: parseItems fuel rest
    | 0x5B :: rest => match parseBracket rest with
      | some (item, rest) => item :: parseItems fuel rest
      | none => .exactly 0x5B :: parseItems fuel rest
    | c :: rest => .exactly c :: parseItems fuel rest

/-- The parts of a shell pattern. -/
def parsePattern (t : Text) : List PatternItem := parseItems t.length t

def itemsMatch : List PatternItem → Text → Bool
  | [] => List.isEmpty
  | .anyMany :: items => fun t => t.tails.any (itemsMatch items)
  | item :: items => fun
    | [] => false
    | c :: t => item.admits c && itemsMatch items t

/-- A shell pattern matches a whole text, slashes and leading dots being ordinary. -/
def patternMatches (pattern t : Text) : Bool := itemsMatch (parsePattern pattern) t

/-- A character that stands for itself in a pattern. -/
def isOrdinary (c : CodePoint) : Bool := !(c = 0x2A || c = 0x3F || c = 0x5B || c = 0x5C)

theorem parseItems_cons (h : isOrdinary c = true) (n : Nat) (t : Text) :
    parseItems (n + 1) (c :: t) = .exactly c :: parseItems n t := by
  simp only [isOrdinary, Bool.not_eq_true', Bool.or_eq_false_iff, decide_eq_false_iff_not] at h
  rw [parseItems] <;> simp_all

theorem parseItems_ordinary (h : ∀ c ∈ t, isOrdinary c = true) (hn : t.length ≤ n) :
    parseItems n t = t.map .exactly := by
  induction t generalizing n with
  | nil => cases n <;> rfl
  | cons c t ih =>
    cases n with
    | zero => cases hn
    | succ n =>
      rw [parseItems_cons (h c List.mem_cons_self), List.map_cons,
        ih (fun d hd => h d (List.mem_cons_of_mem _ hd)) (Nat.le_of_succ_le_succ hn)]

theorem itemsMatch_exactly (p t : Text) : itemsMatch (p.map .exactly) t = true ↔ t = p := by
  induction p generalizing t with
  | nil => exact List.isEmpty_iff
  | cons c p ih =>
    cases t with
    | nil => simp [itemsMatch]
    | cons d t =>
      have hcons : itemsMatch (.exactly c :: p.map .exactly) (d :: t) =
          (decide (c = d) && itemsMatch (p.map .exactly) t) := rfl
      rw [List.map_cons, hcons, Bool.and_eq_true, ih, List.cons.injEq, decide_eq_true_eq, eq_comm]

theorem patternMatches_ordinary (h : ∀ c ∈ p, isOrdinary c = true) (t : Text) :
    patternMatches p t = true ↔ t = p := by
  rw [patternMatches, parsePattern, parseItems_ordinary h (Nat.le_refl _), itemsMatch_exactly]

example : patternMatches (text "/a[bc]/*") (text "/ab/c/.d") = true := by decide +kernel
example : patternMatches (text "/a[!b-d]?") (text "/acx") = false := by decide +kernel
example : patternMatches (text "/a[]-]\\*[[:digit:]]") (text "/a]*7") = true := by decide +kernel
example : patternMatches (text "/a[b") (text "/a[b") = true := by decide +kernel
example : patternMatches (text "/a*[A-[.z.]]") (text "/a*[A-[.z.]]") = true := by decide +kernel

end Library
