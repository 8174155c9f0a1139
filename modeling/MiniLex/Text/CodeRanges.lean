/-!
# Ranges of code points

A set of code points is written down as a list of ranges that ascend and do not overlap, so that a
search can stop early: `covers` looks no further than the first range that begins beyond the code
point in question. For ascending ranges that is membership in one of them (`covers_iff`).
-/

namespace MiniLex

/-- Ranges of code points, given by their first and last members. -/
abbrev CodeRanges := List (Nat × Nat)

namespace CodeRanges

/-- No range is empty, the first begins at `bound` or later, and each begins after the one before it
has ended. -/
def AscendFrom (bound : Nat) : CodeRanges → Prop
  | [] => True
  | (first, last) :: rest => bound ≤ first ∧ first ≤ last ∧ AscendFrom (last + 1) rest

/-- Whether ranges ascend is decided range by range. -/
instance decidableAscendFrom : (bound : Nat) → (rs : CodeRanges) → Decidable (rs.AscendFrom bound)
  | _, [] => isTrue trivial
  | bound, (first, last) :: rest =>
    have := decidableAscendFrom (last + 1) rest
    inferInstanceAs (Decidable (bound ≤ first ∧ first ≤ last ∧ AscendFrom (last + 1) rest))

/-- Whether one of the ranges, which are to ascend, has a code point as a member. -/
def covers : CodeRanges → Nat → Bool
  | [], _ => false
  | (first, last) :: rest, code => first ≤ code && (code ≤ last || covers rest code)

theorem AscendFrom.le_of_mem {bound : Nat} {rs : CodeRanges} (h : rs.AscendFrom bound)
    {r : Nat × Nat} (hr : r ∈ rs) : bound ≤ r.1 := by
  induction rs generalizing bound with
  | nil => simp at hr
  | cons s rest ih =>
    obtain ⟨hfirst, hlast, hrest⟩ := h
    rcases List.mem_cons.1 hr with rfl | hr
    · exact hfirst
    · have := ih hrest hr
      omega

theorem covers_iff {bound : Nat} {rs : CodeRanges} (h : rs.AscendFrom bound) (code : Nat) :
    rs.covers code = true ↔ ∃ r ∈ rs, r.1 ≤ code ∧ code ≤ r.2 := by
  induction rs generalizing bound with
  | nil => simp [covers]
  | cons s rest ih =>
    obtain ⟨_, hlast, hrest⟩ := h
    have hlater : (∃ r ∈ rest, r.1 ≤ code ∧ code ≤ r.2) → s.1 ≤ code := by
      rintro ⟨r, hr, hle, _⟩
      have := hrest.le_of_mem hr
      omega
    simp only [covers, Bool.and_eq_true, Bool.or_eq_true, decide_eq_true_eq, ih hrest,
      List.mem_cons, or_and_right, exists_or, exists_eq_left]
    constructor
    · rintro ⟨hfirst, hle | hmem⟩
      · exact .inl ⟨hfirst, hle⟩
      · exact .inr hmem
    · rintro (⟨hfirst, hle⟩ | hmem)
      · exact ⟨hfirst, .inl hle⟩
      · exact ⟨hlater hmem, .inr hmem⟩

end CodeRanges

end MiniLex
