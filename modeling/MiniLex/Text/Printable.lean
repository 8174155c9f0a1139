import MiniLex.Text.Unassigned

/-!
# Printable characters

Quoted renderings of text show printable characters as they are and escape the others. A character
is unprintable if its general category in Unicode 14.0 is control (Cc), format (Cf), line or
paragraph separator (Zl, Zp), private use (Co), unassigned (Cn), or space separator (Zs) other than
the space itself.
-/

namespace MiniLex.Printable

/-- The unprintable code points that are assigned. -/
def unprintableRanges : CodeRanges :=
  [(0x00, 0x1f), (0x7f, 0xa0), (0xad, 0xad), (0x600, 0x605), (0x61c, 0x61c), (0x6dd, 0x6dd),
   (0x70f, 0x70f), (0x890, 0x891), (0x8e2, 0x8e2), (0x1680, 0x1680), (0x180e, 0x180e),
   (0x2000, 0x200f), (0x2028, 0x202f), (0x205f, 0x2064), (0x2066, 0x206f), (0x3000, 0x3000),
   (0xe000, 0xf8ff), (0xfeff, 0xfeff), (0xfff9, 0xfffb), (0x110bd, 0x110bd), (0x110cd, 0x110cd),
   (0x13430, 0x13438), (0x1bca0, 0x1bca3), (0x1d173, 0x1d17a), (0xe0001, 0xe0001),
   (0xe0020, 0xe007f), (0xf0000, 0xffffd), (0x100000, 0x10fffd)]

theorem unprintableRanges_ascend : unprintableRanges.AscendFrom 0 := by decide +kernel

/-- Whether a character shows as itself in a quoted rendering. -/
def isPrintable (c : Char) : Bool :=
  !unprintableRanges.covers c.toNat && !Unassigned.ranges.covers c.toNat

/-- A character is printable exactly if none of the ranges has it as a member. -/
theorem isPrintable_iff (c : Char) :
    isPrintable c = true ↔
      (∀ r ∈ unprintableRanges, r.1 ≤ c.toNat → r.2 < c.toNat) ∧
        ∀ r ∈ Unassigned.ranges, r.1 ≤ c.toNat → r.2 < c.toNat := by
  simp only [isPrintable, Bool.and_eq_true, Bool.not_eq_true', Bool.eq_false_iff, ne_eq,
    CodeRanges.covers_iff unprintableRanges_ascend, CodeRanges.covers_iff Unassigned.ranges_ascend,
    not_exists, not_and, Nat.not_le]

/-- The printable ASCII characters are those from the space to the tilde. -/
theorem isPrintable_ascii :
    ((List.range 128).filter fun n => isPrintable (Char.ofNat n)) = List.range' 32 95 := by
  decide +kernel

end MiniLex.Printable
