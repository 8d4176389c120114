/-! # Sets of characters as ranges

A class of characters is given by the ranges of its code points, in increasing order, both ends
included. `Ranges.holds_iff` says what such a list stands for. -/

namespace SqlFragments.Text

/-- Ranges of code points, each with its first and its last member. -/
abbrev Ranges := List (Nat × Nat)

namespace Ranges

/-- Each range is in order and ends before the next one begins. -/
def Increasing : Ranges → Prop
  | [] => True
  | [(lo, hi)] => lo ≤ hi
  | (lo, hi) :: (lo', hi') :: rest => lo ≤ hi ∧ hi < lo' ∧ Increasing ((lo', hi') :: rest)

/-- Whether a code point lies in one of the ranges. The search stops at the first range that
begins after it. -/
def holds : Ranges → Nat → Bool
  | [], _ => false
  | (lo, hi) :: rest, n => lo ≤ n && (n ≤ hi || holds rest n)

@[simp] theorem holds_nil (n : Nat) : holds [] n = false := rfl

/-- Behind the first range the others increase. -/
theorem Increasing.tail {r : Nat × Nat} {rest : Ranges} (h : Increasing (r :: rest)) :
    Increasing rest := by
  cases rest with
  | nil => trivial
  | cons r' rest => exact h.2.2

/-- None of them begins before the first. -/
theorem Increasing.le_of_mem {r s : Nat × Nat} {rest : Ranges} (h : Increasing (r :: rest))
    (hs : s ∈ rest) : r.1 ≤ s.1 := by
  induction rest generalizing r with
  | nil => cases hs
  | cons r' rest ih =>
    have hle : r.1 ≤ r'.1 := Nat.le_trans h.1 (Nat.le_of_lt h.2.1)
    rcases List.mem_cons.1 hs with rfl | hs
    · exact hle
    · exact Nat.le_trans hle (ih h.tail hs)

/-- **Membership.** In increasing ranges the early stop loses nothing. -/
theorem holds_iff {rs : Ranges} (h : rs.Increasing) {n : Nat} :
    rs.holds n = true ↔ ∃ r ∈ rs, r.1 ≤ n ∧ n ≤ r.2 := by
  induction rs with
  | nil => simp
  | cons r rest ih =>
    simp only [holds, Bool.and_eq_true, decide_eq_true_eq, Bool.or_eq_true, ih h.tail]
    constructor
    · rintro ⟨h₁, h₂ | ⟨s, hs, h₃⟩⟩
      · exact ⟨r, List.mem_cons_self, h₁, h₂⟩
      · exact ⟨s, List.mem_cons_of_mem _ hs, h₃⟩
    · rintro ⟨s, hs, h₁, h₂⟩
      rcases List.mem_cons.1 hs with rfl | hs
      · exact ⟨h₁, Or.inl h₂⟩
      · -- the search gets past the first range
        exact ⟨Nat.le_trans (h.le_of_mem hs) h₁, Or.inr ⟨s, hs, h₁, h₂⟩⟩

end Ranges

end SqlFragments.Text
