import GoalRouter.Library.Text

namespace Library
set_option autoImplicit true

abbrev slash : CodePoint := 0x2F

/-- A path component that `pathlib` keeps: neither empty nor a single dot. -/
def keptPart (p : Text) : Bool := p != [] && p != text "."

/-- The slashes `pathlib` keeps in front: two only where there are exactly two. -/
def pathRoot (t : Text) : Text :=
  match (t.takeWhile (· == slash)).length with
  | 0 => []
  | 2 => [slash, slash]
  | _ => [slash]

def pathParts (t : Text) : List Text := (t.splitOn slash).filter keptPart

/-- The text of a path with the given root and parts. -/
def joinParts (root : Text) (parts : List Text) : Text :=
  if root ++ [slash].intercalate parts = [] then text "." else root ++ [slash].intercalate parts

/-- `str(PurePosixPath(t))`. -/
def normalizePath (t : Text) : Text := joinParts (pathRoot t) (pathParts t)

example : normalizePath (text "a//b/./c/") = text "a/b/c" := by decide
example : normalizePath (text "///a") = text "/a" := by decide

theorem pathRoot_cases (t : Text) :
    pathRoot t = [] ∨ pathRoot t = [slash] ∨ pathRoot t = [slash, slash] := by
  unfold pathRoot
  split <;> simp

theorem slash_not_mem_splitOn {t p : Text} (h : p ∈ t.splitOn slash) : slash ∉ p := by
  induction t generalizing p with
  | nil => simp_all
  | cons c t ih =>
    rw [List.splitOn_cons_eq_if_modifyHead] at h
    split at h
    · rcases List.mem_cons.1 h with rfl | h
      · exact List.not_mem_nil
      · exact ih h
    · rename_i hc
      obtain ⟨q, qs, hq⟩ := List.exists_cons_of_ne_nil (List.splitOn_ne_nil slash t)
      rw [hq] at h ih
      rcases List.mem_cons.1 h with rfl | h
      · intro hs
        rcases List.mem_cons.1 hs with he | hs
        · simp [he] at hc
        · exact ih List.mem_cons_self hs
      · exact ih (List.mem_cons_of_mem _ h)

theorem mem_pathParts {t p : Text} (h : p ∈ pathParts t) : keptPart p = true ∧ slash ∉ p :=
  ⟨(List.mem_filter.1 h).2, slash_not_mem_splitOn (List.mem_filter.1 h).1⟩

theorem pathParts_slash (t : Text) : pathParts (slash :: t) = pathParts t := by
  simp only [pathParts, List.splitOn_cons_eq_if_modifyHead, BEq.rfl, ↓reduceIte]
  exact List.filter_cons_of_neg (by decide)

theorem pathParts_intercalate {ps : List Text} (h : ∀ p ∈ ps, keptPart p = true ∧ slash ∉ p) :
    pathParts ([slash].intercalate ps) = ps := by
  by_cases hn : ps = []
  · subst hn
    decide
  · rw [pathParts, List.splitOn_intercalate slash (fun p hp => (h p hp).2) hn]
    exact List.filter_eq_self.2 fun p hp => (h p hp).1

theorem intercalate_head {ps : List Text} (h : ∀ p ∈ ps, keptPart p = true ∧ slash ∉ p) :
    ([slash].intercalate ps).takeWhile (· == slash) = [] := by
  cases ps with
  | nil => rfl
  | cons p ps =>
    obtain ⟨hk, hs⟩ := h p List.mem_cons_self
    cases p with
    | nil => cases hk
    | cons c p =>
      have hc : (c == slash) = false := by
        simp only [beq_eq_false_iff_ne]
        exact fun he => hs (he ▸ List.mem_cons_self)
      cases ps with
      | nil => simp [hc]
      | cons q ps => simp [hc]

theorem pathRoot_append {root s : Text}
    (hr : root = [] ∨ root = [slash] ∨ root = [slash, slash])
    (hs : s.takeWhile (· == slash) = []) : pathRoot (root ++ s) = root := by
  rcases hr with rfl | rfl | rfl <;> simp [pathRoot, hs]

theorem pathParts_append {root s : Text}
    (hr : root = [] ∨ root = [slash] ∨ root = [slash, slash]) :
    pathParts (root ++ s) = pathParts s := by
  rcases hr with rfl | rfl | rfl
  · rfl
  · exact pathParts_slash s
  · exact (pathParts_slash _).trans (pathParts_slash s)

theorem normalizePath_idem (t : Text) : normalizePath (normalizePath t) = normalizePath t := by
  have hp : ∀ p ∈ pathParts t, keptPart p = true ∧ slash ∉ p := fun p => mem_pathParts
  have hr := pathRoot_cases t
  by_cases he : pathRoot t ++ [slash].intercalate (pathParts t) = []
  · have hn : normalizePath t = text "." := by rw [normalizePath, joinParts, if_pos he]
    rw [hn]
    decide
  · have hn : normalizePath t = pathRoot t ++ [slash].intercalate (pathParts t) := by
      rw [normalizePath, joinParts, if_neg he]
    rw [hn, normalizePath, pathRoot_append hr (intercalate_head hp), pathParts_append hr,
      pathParts_intercalate hp, joinParts, if_neg he]

theorem joinSurrogates_slash (t : Text) :
    joinSurrogates (slash :: t) = slash :: joinSurrogates t := by
  cases t with
  | nil => rfl
  | cons c t =>
    have hs : isHighSurrogate slash = false := by decide
    rw [joinSurrogates, hs, Bool.false_and]
    rfl

theorem joinSurrogates_append_slash (a b : Text) :
    joinSurrogates (a ++ slash :: b) = joinSurrogates a ++ slash :: joinSurrogates b := by
  induction a using joinSurrogates.induct with
  | case1 => exact joinSurrogates_slash b
  | case2 c =>
    have hs : isLowSurrogate slash = false := by decide
    simp only [List.singleton_append, joinSurrogates, hs, Bool.and_false, Bool.false_eq_true,
      ↓reduceIte, joinSurrogates_slash]
  | case3 h l rest hp ih =>
    simp only [List.cons_append, joinSurrogates, hp, ↓reduceIte, ih]
  | case4 h l rest hp ih =>
    simp only [List.cons_append, joinSurrogates, hp] at ih ⊢
    simp only [Bool.false_eq_true, ↓reduceIte, ih, List.cons_append]

theorem joinSurrogates_intercalate (ps : List Text) :
    joinSurrogates ([slash].intercalate ps) = [slash].intercalate (ps.map joinSurrogates) := by
  induction ps with
  | nil => rfl
  | cons p ps ih =>
    cases ps with
    | nil => simp
    | cons q ps =>
      rw [List.intercalate_cons_cons, List.append_assoc, List.singleton_append,
        joinSurrogates_append_slash, ih]
      simp

theorem slash_mem_joinSurrogates {t : Text} (h : slash ∈ joinSurrogates t) : slash ∈ t := by
  induction t using joinSurrogates.induct with
  | case1 => exact h
  | case2 c => exact h
  | case3 h' l rest hp ih =>
    rw [joinSurrogates, if_pos hp] at h
    obtain ⟨hh, hl⟩ := Bool.and_eq_true_iff.1 hp
    rcases List.mem_cons.1 h with he | h
    · have hv := surrogatePair_val hh hl
      rw [← he] at hv
      exact absurd hv (by decide)
    · exact List.mem_cons_of_mem _ (List.mem_cons_of_mem _ (ih h))
  | case4 h' l rest hp ih =>
    rw [joinSurrogates, if_neg hp] at h
    rcases List.mem_cons.1 h with he | h
    · exact he ▸ List.mem_cons_self
    · exact List.mem_cons_of_mem _ (ih h)

theorem keptPart_joinSurrogates (p : Text) : keptPart (joinSurrogates p) = keptPart p := by
  cases p with
  | nil => rfl
  | cons h p =>
    cases p with
    | nil => rfl
    | cons l rest =>
      have hl : keptPart (h :: l :: rest) = true := by simp [keptPart, text]
      rw [hl, joinSurrogates]
      split
      · rename_i hp
        obtain ⟨hh, hl⟩ := Bool.and_eq_true_iff.1 hp
        have hv := surrogatePair_val hh hl
        have hd : surrogatePair h l :: joinSurrogates rest ≠ text "." := fun he => by
          rw [(List.cons.inj he).1] at hv
          exact absurd hv (by decide)
        simp [keptPart, hd]
      · obtain ⟨d, u, hj, _⟩ := joinSurrogates_head l rest
        simp [keptPart, text, hj]

theorem takeWhile_joinSurrogates (t : Text) :
    (joinSurrogates t).takeWhile (· == slash) = t.takeWhile (· == slash) := by
  induction t using joinSurrogates.induct with
  | case1 => rfl
  | case2 c => rfl
  | case3 h l rest hp ih =>
    obtain ⟨hh, hl⟩ := Bool.and_eq_true_iff.1 hp
    have hv := surrogatePair_val hh hl
    have h1 : surrogatePair h l ≠ slash := fun he => absurd (he ▸ hv) (by decide)
    have h2 : h ≠ slash := fun he => absurd (he ▸ hh) (by decide)
    rw [joinSurrogates, if_pos hp]
    simp [h1, h2]
  | case4 h l rest hp ih =>
    rw [joinSurrogates, if_neg hp]
    simp only [List.takeWhile_cons, ih]

theorem normalizePath_joinSurrogates (t : Text) :
    normalizePath (joinSurrogates t) = joinSurrogates (normalizePath t) := by
  have hroot : pathRoot (joinSurrogates t) = pathRoot t := by
    simp only [pathRoot, takeWhile_joinSurrogates]
  have hsplit : (joinSurrogates t).splitOn slash = (t.splitOn slash).map joinSurrogates := by
    have ht : [slash].intercalate (t.splitOn slash) = t := List.intercalate_splitOn slash
    conv => lhs; rw [← ht]
    rw [joinSurrogates_intercalate, List.splitOn_intercalate]
    · intro p hp
      obtain ⟨q, hq, rfl⟩ := List.mem_map.1 hp
      exact fun hs => slash_not_mem_splitOn hq (slash_mem_joinSurrogates hs)
    · simp
  have hparts : pathParts (joinSurrogates t) = (pathParts t).map joinSurrogates := by
    rw [pathParts, hsplit, List.filter_map, pathParts]
    congr 1
    exact List.filter_congr fun p _ => keptPart_joinSurrogates p
  have hjoin (root : Text) (hr : root = [] ∨ root = [slash] ∨ root = [slash, slash])
      (ps : List Text) : joinSurrogates (root ++ [slash].intercalate ps) =
        root ++ [slash].intercalate (ps.map joinSurrogates) := by
    rw [← joinSurrogates_intercalate]
    rcases hr with rfl | rfl | rfl
    · rfl
    · exact joinSurrogates_slash _
    · exact (joinSurrogates_slash _).trans (congrArg _ (joinSurrogates_slash _))
  have hj := hjoin _ (pathRoot_cases t) (pathParts t)
  rw [normalizePath, hroot, hparts, joinParts, ← hj, normalizePath, joinParts]
  generalize pathRoot t ++ [slash].intercalate (pathParts t) = s
  cases s with
  | nil => rfl
  | cons c s =>
    obtain ⟨d, u, he, _⟩ := joinSurrogates_head c s
    rw [if_neg (List.cons_ne_nil c s), he, if_neg (List.cons_ne_nil d u)]

/-- A `pathlib` path, held by its text. -/
structure PurePath where
  text : Text
  normal : normalizePath text = text
  deriving DecidableEq

namespace PurePath

/-- `Path(t)`. -/
def ofText (t : Text) : PurePath := ⟨normalizePath t, normalizePath_idem t⟩

@[simp] theorem ofText_text (p : PurePath) : ofText p.text = p := by
  cases p
  simpa [ofText]

def isAbsolute (p : PurePath) : Bool := p.text.head? == some slash

/-- `root / path`. -/
def join (root path : PurePath) : PurePath :=
  if path.isAbsolute then path
  else if root.text.getLast? == some slash then ofText (root.text ++ path.text)
  else ofText (root.text ++ slash :: path.text)

/-- `path.relative_to(root)`, `none` where it raises `ValueError`. -/
def relativeTo (path root : PurePath) : Option PurePath :=
  if pathRoot path.text = pathRoot root.text then
    if (pathParts root.text).isPrefixOf (pathParts path.text) then
      some (ofText (joinParts [] ((pathParts path.text).drop (pathParts root.text).length)))
    else none
  else none

theorem ofText_joinSurrogates (p : PurePath) :
    (ofText (joinSurrogates p.text)).text = joinSurrogates p.text := by
  simp only [ofText, normalizePath_joinSurrogates, p.normal]

end PurePath

example : (PurePath.ofText (text "/w/a/b")).relativeTo (PurePath.ofText (text "/w")) =
    some (PurePath.ofText (text "a/b")) := by
  decide

end Library
