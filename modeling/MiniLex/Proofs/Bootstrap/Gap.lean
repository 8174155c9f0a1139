import Mathlib.Logic.Relation
import MiniLex.Bootstrap.Rules
import MiniLex.Proofs.Text.Offsets

/-!
# Gaps in bootstrap text

A gap is a sequence of pieces (`GapPiece`): line ends, blanks, and comments,
each from a number sign in the first column to right before the end of its
line. `gapEnd` is where the gap that is skipped at an offset ends:

* `gap_gapEnd`: what is skipped is a gap;
* `gapEnd_of_piece`: skipping any piece of it first makes no difference;
* `not_gapPiece_gapEnd`: no piece stands behind it.
-/

namespace MiniLex.Bootstrap

variable {source : Text} {i j : Nat} {c : Char}

/-- An offset in the first column: the start of the text, or right after a line end. -/
def LineStart (source : Text) (i : Nat) : Prop := i = 0 ∨ source[i - 1]? = some '\n'

/-- One piece of a gap, from one offset up to another. -/
inductive GapPiece (source : Text) : Nat → Nat → Prop
  | lineEnd {i : Nat} : source[i]? = some '\n' → GapPiece source i (i + 1)
  | blank {i : Nat} {c : Char} :
    source[i]? = some c → c ∈ [' ', '\t', '\r'] → GapPiece source i (i + 1)
  /-- A comment takes all characters but line ends. -/
  | comment {i j : Nat} : source[i]? = some '#' → LineStart source i →
    source.LongestRun (· ≠ '\n') i j → GapPiece source i j

/-- A gap from one offset up to another: any number of pieces, one after the other. -/
abbrev Gap (source : Text) : Nat → Nat → Prop := Relation.ReflTransGen (GapPiece source)

/-- The offset at which the gap ends that is skipped from an offset on. -/
def gapEnd (source : Text) (i : Nat) : Nat := i + (gap (.at source i) (source.drop i)).length

theorem ne_lineEnd_iff (c : Char) : decide (c ≠ '\n') = true ↔ c ≠ '\n' := decide_eq_true_iff

theorem isBlank_iff : isBlank c = true ↔ c ∈ [' ', '\t', '\r'] := by
  simp [isBlank, or_assoc]

theorem place_at_eq_lineStart_iff : Place.at source i = .lineStart ↔ LineStart source i := by
  simp only [Place.at, LineStart]
  split <;> simp_all

theorem place_at_ne_comment : Place.at source i ≠ .comment := by
  simp only [Place.at]
  split <;> simp

/-! ## Skipping one piece -/

theorem gap_lineEnd {place : Place} (t : Text) :
    gap place ('\n' :: t) = '\n' :: gap .lineStart t := by
  cases place <;> simp [gap]

theorem gap_blank {place : Place} (hp : place ≠ .comment) (hc : isBlank c = true) (t : Text) :
    gap place (c :: t) = c :: gap .midLine t := by
  have hn : c ≠ '\n' := by
    rintro rfl
    exact absurd hc (by decide)
  cases place <;> simp_all [gap]

/-- Inside a comment everything up to the end of the line is skipped. -/
theorem gap_comment (t : Text) :
    gap .comment t = t.takeWhile (· ≠ '\n') ++ gap .midLine (t.dropWhile (· ≠ '\n')) := by
  induction t with
  | nil => rfl
  | cons c t ih =>
    by_cases hc : c = '\n'
    · subst hc
      rw [gap_lineEnd]
      simp [gap_lineEnd]
    · simp [gap, hc, ih]

/-- Before a line end, and at the end of the text, all places are alike. -/
theorem gap_congr_place (place place' : Place) {t : Text} (h : ∀ c, t.head? = some c → c = '\n') :
    gap place t = gap place' t := by
  cases t with
  | nil => cases place <;> cases place' <;> rfl
  | cons c t => rw [h c rfl, gap_lineEnd, gap_lineEnd]

/-- Where a character stands that begins no piece, nothing is skipped. -/
theorem gap_eq_nil {place : Place} (hp : place ≠ .comment) (hn : c ≠ '\n') (hb : isBlank c = false)
    (hh : ¬(c = '#' ∧ place = .lineStart)) (t : Text) : gap place (c :: t) = [] := by
  cases place <;> simp_all [gap]

/-- Skipping the first piece of a gap makes no difference to where it ends. -/
theorem gapEnd_of_piece (h : GapPiece source i j) : gapEnd source i = gapEnd source j := by
  cases h with
  | lineEnd hc =>
    have hat : Place.at source (i + 1) = .lineStart := place_at_eq_lineStart_iff.mpr (.inr hc)
    rw [gapEnd, gapEnd, Text.drop_eq_cons hc, gap_lineEnd, hat, List.length_cons]
    omega
  | blank hc hb =>
    rename_i c
    have hn : c ≠ '\n' := by
      rintro rfl
      exact absurd hb (by decide)
    have hat : Place.at source (i + 1) = .midLine := by simp [Place.at, hc, hn]
    rw [gapEnd, gapEnd, Text.drop_eq_cons hc, gap_blank place_at_ne_comment (isBlank_iff.mpr hb),
      hat, List.length_cons]
    omega
  | comment hc hl hr =>
    have hdrop := Text.drop_eq_cons hc
    have hj := (Text.longestRun_iff ne_lineEnd_iff (Nat.le_trans hr.le hr.le_length)).mp hr
    rw [hdrop, List.takeWhile_cons_of_pos (by decide), List.length_cons] at hj
    have hsplit : source.drop i = ('#' :: (source.drop (i + 1)).takeWhile (· ≠ '\n')) ++
        (source.drop (i + 1)).dropWhile (· ≠ '\n') := by
      rw [hdrop, List.cons_append, List.takeWhile_append_dropWhile]
    have hrest := Text.drop_add_of_drop_eq_append hsplit
    rw [List.length_cons, ← hj] at hrest
    have hnext := List.head?_dropWhile_not (· ≠ '\n') (source.drop (i + 1))
    rw [gapEnd, gapEnd, hdrop, hrest, place_at_eq_lineStart_iff.mpr hl]
    rw [gap_congr_place (.at source j) .midLine]
    · have hcomment : gap .lineStart ('#' :: source.drop (i + 1)) =
          '#' :: gap .comment (source.drop (i + 1)) := by
        simp [gap, isBlank]
      rw [hcomment, gap_comment, List.length_cons, List.length_append]
      omega
    · intro c hc
      rw [hc] at hnext
      simpa using hnext

/-! ## Where a gap ends -/

theorem le_gapEnd (source : Text) (i : Nat) : i ≤ gapEnd source i := Nat.le_add_right _ _

theorem gapEnd_le_length (h : i ≤ source.length) : gapEnd source i ≤ source.length := by
  have hp := gap_prefix (.at source i) (source.drop i)
  have hlen := hp.length_le
  rw [List.length_drop] at hlen
  rw [gapEnd]
  omega

/-- What is skipped is the text up to where the gap ends. -/
theorem gap_eq_slice (source : Text) (i : Nat) :
    gap (.at source i) (source.drop i) = source.slice i (gapEnd source i) := by
  rw [Text.slice, gapEnd, Nat.add_sub_cancel_left]
  exact List.prefix_iff_eq_take.mp <| gap_prefix _ _

/-- A piece takes at least one character of the text. -/
theorem GapPiece.lt (h : GapPiece source i j) : i < j ∧ j ≤ source.length := by
  cases h with
  | lineEnd hc => exact ⟨Nat.lt_succ_self _, (List.getElem?_eq_some_iff.mp hc).1⟩
  | blank hc _ => exact ⟨Nat.lt_succ_self _, (List.getElem?_eq_some_iff.mp hc).1⟩
  | comment hc _ hr =>
    refine ⟨Nat.lt_of_le_of_ne hr.le ?_, hr.le_length⟩
    rintro rfl
    exact hr.next _ hc (by decide)

theorem Gap.le (h : Gap source i j) : i ≤ j := by
  induction h with
  | refl => exact Nat.le_refl _
  | tail _ hp ih => exact Nat.le_trans ih (Nat.le_of_lt hp.lt.1)

/-- Where a gap goes on, a piece of it stands. -/
theorem exists_gapPiece (h : gapEnd source i ≠ i) : ∃ j, GapPiece source i j := by
  refine Classical.byContradiction fun hnone => h ?_
  cases hd : source.drop i with
  | nil => rw [gapEnd, hd]; cases Place.at source i <;> rfl
  | cons c t =>
    have hc := Text.getElem?_of_drop_eq_cons hd
    have hi := Nat.le_of_lt (Text.lt_length_of_drop_eq_cons hd)
    rw [gapEnd, hd, gap_eq_nil place_at_ne_comment]
    · rfl
    · rintro rfl
      exact hnone ⟨_, .lineEnd hc⟩
    · refine Bool.eq_false_iff.mpr fun hb => hnone ⟨_, .blank hc (isBlank_iff.mp hb)⟩
    · rintro ⟨rfl, hl⟩
      have hrun := Text.longestRun_takeWhile ne_lineEnd_iff hi
      exact hnone ⟨_, .comment hc (place_at_eq_lineStart_iff.mp hl) hrun⟩

/-- A gap goes on wherever a piece stands. -/
theorem lt_gapEnd_of_piece (h : GapPiece source i j) : i < gapEnd source i := by
  rw [gapEnd_of_piece h]
  exact Nat.lt_of_lt_of_le h.lt.1 (le_gapEnd source j)

/-- What is skipped from an offset on is a gap. By induction on the text that is left: each piece
takes some of it. -/
theorem gap_gapEnd (source : Text) (i : Nat) : Gap source i (gapEnd source i) := by
  induction hn : source.length - i using Nat.strongRecOn generalizing i with
  | ind n ih =>
    by_cases h : gapEnd source i = i
    · rw [h]
    · obtain ⟨j, hp⟩ := exists_gapPiece h
      have hlt := hp.lt
      rw [gapEnd_of_piece hp]
      exact .head hp (ih (source.length - j) (by omega) j rfl)

theorem gapEnd_of_gap (h : Gap source i j) : gapEnd source i = gapEnd source j := by
  induction h with
  | refl => rfl
  | tail _ hp ih => exact ih.trans (gapEnd_of_piece hp)

/-- No piece of a gap stands where it ends. -/
theorem not_gapPiece_gapEnd (source : Text) (i j : Nat) : ¬GapPiece source (gapEnd source i) j := by
  intro hp
  have hlt := lt_gapEnd_of_piece hp
  rw [← gapEnd_of_gap (gap_gapEnd source i)] at hlt
  exact Nat.lt_irrefl _ hlt

end MiniLex.Bootstrap
