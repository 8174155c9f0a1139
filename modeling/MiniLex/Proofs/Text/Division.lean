import MiniLex.Token

/-!
# How tokens divide a text

Tokens are cut from a text one after the other (`Cuts`): a gap, a token, a gap,
and so on up to the end token. What a caller sees of it is `Divides`: spans in
order that overlap nowhere, gaps between them, and one end token, the last.
`Cuts.divides` is the step from one to the other.
-/

namespace MiniLex

/-- A token takes some of a text, unless it is the end token, which stands at the end of it. -/
structure Token.StandsIn (t : Token) (source : Text) : Prop where
  start_le : t.start ≤ t.stop
  stop_le : t.stop ≤ source.length
  takes : t.kind.isEnd = false → t.start < t.stop
  atEnd : t.kind.isEnd = true → t.start = source.length

/-- The end token ends where the text does. -/
theorem Token.StandsIn.stop_eq {t : Token} {source : Text} (h : t.StandsIn source)
    (hk : t.kind.isEnd = true) : t.stop = source.length :=
  Nat.le_antisymm h.stop_le (h.atEnd hk ▸ h.start_le)

/-- A token in a text that has so many characters and line ends more before it. -/
def Token.shift (chars lines : Nat) (t : Token) : Token :=
  { t with start := chars + t.start, stop := chars + t.stop, line := t.line.map (lines + ·) }

variable {gap : Nat → Nat → Prop} {source : Text} {tokens : List Token} {t : Token} {i : Nat}

/-- From an offset on a text consists of these tokens, with gaps before them. -/
inductive Cuts (gap : Nat → Nat → Prop) (source : Text) : Nat → List Token → Prop
  | last {i : Nat} {t : Token} :
    gap i t.start → t.StandsIn source → t.kind.isEnd = true → Cuts gap source i [t]
  | cons {i : Nat} {t : Token} {tokens : List Token} :
    gap i t.start → t.StandsIn source → t.kind.isEnd = false → Cuts gap source t.stop tokens →
    Cuts gap source i (t :: tokens)

/-- Tokens divide a text: no character of it is in two of them, and between them are only gaps. -/
structure Divides (gap : Nat → Nat → Prop) (source : Text) (tokens : List Token) : Prop where
  length_le : tokens.length ≤ source.length + 1
  /-- The last token alone is the end token. -/
  exists_end : ∃ front last, tokens = front ++ [last] ∧ last.kind.isEnd = true ∧
    last.start = source.length ∧ last.stop = source.length ∧
    ∀ t ∈ front, t.kind.isEnd = false ∧ t.start < t.stop
  ordered : tokens.Pairwise fun t u => t.stop ≤ u.start
  /-- Before each token is a gap, from where the one before it ends. -/
  gaps : ∀ g ∈ (0 :: tokens.map Token.stop).zip (tokens.map Token.start), gap g.1 g.2

namespace Cuts

/-- Behind an offset are no more tokens than characters, not counting the end token. -/
theorem length_add_le (hgap : ∀ i j, gap i j → i ≤ j) (h : Cuts gap source i tokens) :
    tokens.length + i ≤ source.length + 1 := by
  induction h with
  | last hg ht _ =>
    have hle := hgap _ _ hg
    have hstart := ht.start_le
    have hstop := ht.stop_le
    rw [List.length_singleton]
    omega
  | cons hg ht hk _ ih =>
    have hle := hgap _ _ hg
    have hlt := ht.takes hk
    rw [List.length_cons]
    omega

theorem exists_end (h : Cuts gap source i tokens) :
    ∃ front last, tokens = front ++ [last] ∧ last.kind.isEnd = true ∧
      last.start = source.length ∧ last.stop = source.length ∧
      ∀ t ∈ front, t.kind.isEnd = false ∧ t.start < t.stop := by
  induction h with
  | @last i t hg ht hk =>
    exact ⟨[], t, rfl, hk, ht.atEnd hk, ht.stop_eq hk, by simp⟩
  | @cons i t tokens hg ht hk _ ih =>
    obtain ⟨front, last, rfl, hlast, hstart, hstop, hfront⟩ := ih
    refine ⟨t :: front, last, rfl, hlast, hstart, hstop, ?_⟩
    exact List.forall_mem_cons.mpr ⟨⟨hk, ht.takes hk⟩, hfront⟩

theorem le_start (hgap : ∀ i j, gap i j → i ≤ j) (h : Cuts gap source i tokens) :
    ∀ t ∈ tokens, i ≤ t.start := by
  induction h with
  | last hg _ _ =>
    intro u hu
    rw [List.mem_singleton.mp hu]
    exact hgap _ _ hg
  | cons hg ht _ _ ih =>
    have hle := hgap _ _ hg
    have hstop := ht.start_le
    refine List.forall_mem_cons.mpr ⟨hle, fun u hu => ?_⟩
    have hu := ih u hu
    omega

theorem ordered (hgap : ∀ i j, gap i j → i ≤ j) (h : Cuts gap source i tokens) :
    tokens.Pairwise fun t u => t.stop ≤ u.start := by
  induction h with
  | last _ _ _ => exact List.pairwise_singleton _ _
  | cons _ _ _ hcut ih => exact List.pairwise_cons.mpr ⟨hcut.le_start hgap, ih⟩

theorem gaps (h : Cuts gap source i tokens) :
    ∀ g ∈ (i :: tokens.map Token.stop).zip (tokens.map Token.start), gap g.1 g.2 := by
  induction h with
  | last hg _ _ =>
    intro g hmem
    rw [List.map_singleton, List.map_singleton, List.zip_cons_cons, List.zip_nil_right,
      List.mem_singleton] at hmem
    rw [hmem]
    exact hg
  | cons hg _ _ _ ih =>
    rw [List.map_cons, List.map_cons, List.zip_cons_cons]
    exact List.forall_mem_cons.mpr ⟨hg, ih⟩

/-- Tokens that are cut from a text as a whole divide it. -/
theorem divides (hgap : ∀ i j, gap i j → i ≤ j) (h : Cuts gap source 0 tokens) :
    Divides gap source tokens :=
  ⟨h.length_add_le hgap, h.exists_end, h.ordered hgap, h.gaps⟩

end Cuts

end MiniLex
