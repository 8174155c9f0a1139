import Mathlib.Data.List.Forall2
import MiniLex.Text.Basic

/-!
# Letters and their case

The tests for ASCII letters and digits by the ranges that they stand for, and
what it is for two texts to be the same up to the case of ASCII letters
(`SameWord`): folding the case of one of them gives the other, if that has no
capitals (`foldCase_eq_iff`). Folding changes capitals only, and into nothing
but small letters: `toLower_cases` and the lemmas behind it.
-/

namespace MiniLex.Text

variable {c d : Char}

theorem isUpper_iff : c.isUpper = true ↔ 'A' ≤ c ∧ c ≤ 'Z' := decide_eq_true_iff

theorem isLower_iff : c.isLower = true ↔ 'a' ≤ c ∧ c ≤ 'z' := by
  show (decide (c.val ≥ 'a'.val) && decide (c.val ≤ 'z'.val)) = true ↔ _
  rw [Bool.and_eq_true, decide_eq_true_iff, decide_eq_true_iff]
  exact Iff.rfl

theorem isAlpha_iff : c.isAlpha = true ↔ ('A' ≤ c ∧ c ≤ 'Z') ∨ ('a' ≤ c ∧ c ≤ 'z') := by
  show (c.isUpper || c.isLower) = true ↔ _
  rw [Bool.or_eq_true, isUpper_iff, isLower_iff]

theorem isDigit_iff : c.isDigit = true ↔ '0' ≤ c ∧ c ≤ '9' := by
  show (decide (c.val ≥ '0'.val) && decide (c.val ≤ '9'.val)) = true ↔ _
  rw [Bool.and_eq_true, decide_eq_true_iff, decide_eq_true_iff]
  exact Iff.rfl

/-! ## The case of letters -/

/-- The same character up to the case of ASCII letters. -/
def SameLetter (c d : Char) : Prop :=
  c = d ∨ ('A' ≤ c ∧ c ≤ 'Z' ∧ d.toNat = c.toNat + 32) ∨
    ('A' ≤ d ∧ d ≤ 'Z' ∧ c.toNat = d.toNat + 32)

/-- The same text up to the case of ASCII letters. -/
def SameWord (t u : Text) : Prop := List.Forall₂ SameLetter t u

theorem toNat_toLower (h : 'A' ≤ c ∧ c ≤ 'Z') : c.toLower.toNat = c.toNat + 32 := by
  have hz : c.val.toNat ≤ 90 := UInt32.le_iff_toNat_le.mp h.2
  have hlower : c.toLower = ⟨c.val + ('a'.val - 'A'.val), _⟩ := dif_pos ⟨h.1, h.2⟩
  rw [hlower]
  show (c.val + 32).toNat = c.val.toNat + 32
  rw [UInt32.toNat_add]
  show (c.val.toNat + 32) % 2 ^ 32 = c.val.toNat + 32
  omega

theorem toLower_eq_self (h : ¬('A' ≤ c ∧ c ≤ 'Z')) : c.toLower = c :=
  dif_neg fun hc => h ⟨hc.1, hc.2⟩

/-- A character folds to one that is no capital exactly if both are the same up to case. -/
theorem toLower_eq_iff (hd : d.isUpper = false) : c.toLower = d ↔ SameLetter c d := by
  have hnot : ¬('A' ≤ d ∧ d ≤ 'Z') := by
    rw [← isUpper_iff, hd]
    exact Bool.false_ne_true
  by_cases hc : 'A' ≤ c ∧ c ≤ 'Z'
  · have hne : c ≠ d := by
      intro h
      exact hnot (h ▸ hc)
    have hnat := toNat_toLower hc
    constructor
    · intro h
      exact .inr (.inl ⟨hc.1, hc.2, h ▸ hnat⟩)
    · rintro (h | ⟨-, -, h⟩ | ⟨ha, hz, -⟩)
      · exact absurd h hne
      · exact Char.toNat_inj.mp (hnat.trans h.symm)
      · exact absurd ⟨ha, hz⟩ hnot
  · rw [toLower_eq_self hc]
    constructor
    · exact .inl
    · rintro (h | ⟨ha, hz, -⟩ | ⟨ha, hz, -⟩)
      · exact h
      · exact absurd ⟨ha, hz⟩ hc
      · exact absurd ⟨ha, hz⟩ hnot

/-- A text folds to one without capitals exactly if both are the same up to case. -/
theorem foldCase_eq_iff {t u : Text} (hu : u.any Char.isUpper = false) :
    foldCase t = u ↔ SameWord t u := by
  induction t generalizing u with
  | nil =>
    rw [SameWord, List.forall₂_nil_left_iff]
    exact eq_comm
  | cons c t ih =>
    cases u with
    | nil => simp [foldCase, SameWord]
    | cons d u =>
      rw [List.any_cons, Bool.or_eq_false_iff] at hu
      rw [SameWord, List.forall₂_cons, ← SameWord, ← ih hu.2, ← toLower_eq_iff hu.1]
      exact List.cons_eq_cons

/-! ## What folding leaves as it is -/

/-- Putting a character in lower case makes a small letter of a capital, and nothing of others. -/
theorem toLower_cases (c : Char) :
    c.toLower = c ∨ ('A' ≤ c ∧ c ≤ 'Z') ∧ 'a' ≤ c.toLower ∧ c.toLower ≤ 'z' := by
  by_cases hc : 'A' ≤ c ∧ c ≤ 'Z'
  · have hnat : c.toLower.val.toNat = c.val.toNat + 32 := toNat_toLower hc
    have hge : 65 ≤ c.val.toNat := UInt32.le_iff_toNat_le.mp hc.1
    have hle : c.val.toNat ≤ 90 := UInt32.le_iff_toNat_le.mp hc.2
    refine .inr ⟨hc, UInt32.le_iff_toNat_le.mpr ?_, UInt32.le_iff_toNat_le.mpr ?_⟩
    · show 97 ≤ c.toLower.val.toNat
      omega
    · show c.toLower.val.toNat ≤ 122
      omega
  · exact .inl (toLower_eq_self hc)

theorem toLower_toLower (c : Char) : c.toLower.toLower = c.toLower := by
  rcases toLower_cases c with h | ⟨-, hlow, -⟩
  · rw [h, h]
  · refine toLower_eq_self fun hup => ?_
    exact absurd (Char.le_trans hlow hup.2) (by decide)

/-- No character but itself becomes one that is no letter. -/
theorem toLower_eq_iff_of_not_alpha (hd : d.isAlpha = false) : c.toLower = d ↔ c = d := by
  rcases toLower_cases c with h | ⟨hup, hlow⟩
  · rw [h]
  · have hnot : ¬d.isAlpha = true := by rw [hd]; exact Bool.false_ne_true
    refine iff_of_false ?_ ?_
    · rintro rfl
      exact hnot (isAlpha_iff.mpr (.inr hlow))
    · rintro rfl
      exact hnot (isAlpha_iff.mpr (.inl hup))

theorem toLower_mem_iff {cs : List Char} (h : cs.any Char.isAlpha = false) :
    c.toLower ∈ cs ↔ c ∈ cs := by
  have hnot : ∀ d ∈ cs, d.isAlpha = false := fun d hd =>
    Bool.eq_false_iff.mpr (List.any_eq_false.mp h d hd)
  constructor
  · intro hc
    rwa [(toLower_eq_iff_of_not_alpha (hnot _ hc)).mp rfl]
  · intro hc
    rwa [(toLower_eq_iff_of_not_alpha (hnot c hc)).mpr rfl]

/-- A character that is an ASCII one up to case is an ASCII one. -/
theorem SameLetter.toNat_lt (h : SameLetter c d) (hd : d.toNat < 0x80) : c.toNat < 0x80 := by
  rcases h with rfl | ⟨-, hz, -⟩ | ⟨-, hz, h⟩
  · exact hd
  · have hle : c.val.toNat ≤ 90 := UInt32.le_iff_toNat_le.mp hz
    have hsame : c.toNat = c.val.toNat := rfl
    omega
  · have hle : d.val.toNat ≤ 90 := UInt32.le_iff_toNat_le.mp hz
    have hsame : d.toNat = d.val.toNat := rfl
    omega

theorem SameWord.toNat_lt {t u : Text} (h : SameWord t u)
    (hu : u.all (fun d => d.toNat < 0x80) = true) : ∀ c ∈ t, c.toNat < 0x80 := by
  induction h with
  | nil => nofun
  | cons hsame _ ih =>
    rw [List.all_cons, Bool.and_eq_true, decide_eq_true_eq] at hu
    exact List.forall_mem_cons.mpr ⟨hsame.toNat_lt hu.1, ih hu.2⟩

end MiniLex.Text
