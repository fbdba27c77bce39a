import GoalRouter.Library.Text

namespace Library
set_option autoImplicit true

/-- `value.IndexOf(c)` of a .NET string, -1 where it is missing. -/
def indexOf (value : Text) (c : CodePoint) : Int :=
  match value.idxOf? c with
  | some i => i
  | none => -1

/-- `value.LastIndexOf(c)` -/
def lastIndexOf (value : Text) (c : CodePoint) : Int :=
  match value.reverse.idxOf? c with
  | some i => value.length - 1 - i
  | none => -1

/-- `value.Substring(start)`, with a start in the string or at its end. -/
def substringFrom (value : Text) (start : Int) : Text := value.drop start.toNat

/-- `value.Substring(0, length)` -/
def substringTo (value : Text) (length : Int) : Text := value.take length.toNat

variable {value a b : Text} {c : CodePoint}

theorem indexOf_absent (h : c ∉ value) : indexOf value c = -1 := by
  rw [indexOf, List.idxOf?_eq_none_iff.2 h]

theorem lastIndexOf_absent (h : c ∉ value) : lastIndexOf value c = -1 := by
  rw [lastIndexOf, List.idxOf?_eq_none_iff.2 fun hm => h (List.mem_reverse.1 hm)]

theorem idxOf?_first (ha : c ∉ a) : (a ++ c :: b).idxOf? c = some a.length := by
  induction a with
  | nil => simp [List.idxOf?_cons]
  | cons d a ih =>
    rw [List.mem_cons, not_or] at ha
    obtain ⟨hd, ha⟩ := ha
    simp [List.idxOf?_cons, Ne.symm hd, ih ha]

theorem indexOf_first (ha : c ∉ a) : indexOf (a ++ c :: b) c = a.length := by
  rw [indexOf, idxOf?_first ha]

theorem lastIndexOf_last (hb : c ∉ b) : lastIndexOf (a ++ c :: b) c = a.length := by
  have hr : (a ++ c :: b).reverse.idxOf? c = some b.length := by
    rw [List.reverse_append, List.reverse_cons, List.append_assoc, List.singleton_append,
      idxOf?_first fun hm => hb (List.mem_reverse.1 hm), List.length_reverse]
  rw [lastIndexOf, hr]
  simp only [List.length_append, List.length_cons]
  omega

theorem substringFrom_after : substringFrom (a ++ c :: b) (a.length + 1) = b := by
  have hn : ((a.length : Int) + 1).toNat = a.length + 1 := by omega
  rw [substringFrom, hn]
  exact List.drop_length_add_append 1

theorem substringTo_before : substringTo (a ++ c :: b) a.length = a := by
  rw [substringTo, Int.toNat_natCast]
  exact List.take_left

theorem exists_last (h : c ∈ value) : ∃ a b, value = a ++ c :: b ∧ c ∉ b := by
  obtain ⟨b, a, hr, hb⟩ := List.eq_append_cons_of_mem (List.mem_reverse.2 h)
  refine ⟨a.reverse, b.reverse, ?_, fun hm => hb (List.mem_reverse.1 hm)⟩
  have hv := congrArg List.reverse hr
  rw [List.reverse_reverse, List.reverse_append, List.reverse_cons, List.append_assoc,
    List.singleton_append] at hv
  exact hv

example : lastIndexOf (text "a/b/c") (0x2F : CodePoint) = 3 := by decide

end Library
