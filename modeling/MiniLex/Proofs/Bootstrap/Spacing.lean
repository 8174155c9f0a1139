import MiniLex.Proofs.Bootstrap.Seam
import MiniLex.Proofs.Text.Spacing

/-!
# Bootstrap tokens with single spaces between them

A token is the longest match of its rule wherever its text stands before a
space or at the end (`Rule.Matches.longestMatch`): a word and a mark have no
space in them, and a string that could be longer is followed by an apostrophe.
So pieces that are tokens by themselves (`Spells`) are the tokens of the text in
which single spaces stand between them (`yields_of_spacedAt`). Those that a scan
has passed are such pieces: `Passes.spells`.
-/

namespace MiniLex.Bootstrap

variable {source w v : Text} {r : Rule} {i j : Nat} {kind : TokenKind} {value : Option Text}
  {start stop : Nat} {x : Piece} {xs : List Piece} {tokens : List Token}

/-- A piece is what a rule that does not skip makes of its text. -/
def Spells (x : Piece) : Prop :=
  ∃ (r : Rule) (kind : Kind), r.Matches x.text ∧ r.isSkipped = false ∧
    x.kind = .bootstrap kind ∧ r.Gives x.text kind x.value

/-- A match of a rule that does not skip is the longest where it stands before a space or at the
end. -/
theorem Rule.Matches.longestMatch (h : r.Matches w) (hs : r.isSkipped = false)
    (hd : source.drop i = w ++ v) (hv : ∀ c, v.head? = some c → c = ' ') :
    LongestMatch source i r w := by
  have hat : r.MatchesAt source i w := by
    refine ⟨?_, h, v, hd.symm⟩
    rintro rfl
    cases hs
  refine .of_rule hat fun w' hm => Nat.le_of_not_lt fun hlt => ?_
  -- A longer match holds the space that follows.
  have hend := hm.add_length_le
  have hspace : source[i + w.length]? = some ' ' := by
    obtain ⟨c, hc⟩ : ∃ c, source[i + w.length]? = some c :=
      ⟨_, List.getElem?_eq_getElem (by omega)⟩
    rw [← List.head?_drop, Text.drop_add_of_drop_eq_append hd] at hc ⊢
    rw [hc, hv c hc]
  have hmem : ' ' ∈ w' := hm.mem_of_lt (Nat.le_add_right _ _) (by omega) hspace
  cases r with
  | lineEnd | blank | comment => cases hs
  | word =>
    have hmatched := hm.matched
    cases hmatched with
    | word _ hall => exact absurd (isWordChar_iff.mpr (hall _ hmem)) (by decide)
  | string =>
    have hnext := hat.apostrophe_of_lt hm hlt
    rw [hspace] at hnext
    cases hnext
  | mark =>
    have hpos := hat.length_pos
    have hmatched := hm.matched
    cases hmatched
    rw [List.length_singleton] at hlt
    omega

/-- A piece is found where its text stands before a space or at the end. -/
theorem Spells.finds (h : Spells x) (hd : source.drop i = x.text ++ v)
    (hv : ∀ c, v.head? = some c → c = ' ') :
    Finds source i (.token x.kind x.value i (i + x.text.length)) := by
  obtain ⟨r, kind, hm, hs, hk, hg⟩ := h
  rw [hk]
  exact .token (hm.longestMatch hs hd hv) hs hg

/-- A token that is found is a piece by itself. -/
theorem Finds.spells (h : Finds source i (.token kind value start stop))
    (hk : kind.isEnd = false) : Spells ⟨source.slice start stop, kind, value⟩ := by
  generalize hf : Finding.token kind value start stop = f at h
  induction h with
  | atEnd =>
    obtain ⟨rfl, -⟩ := Finding.token.inj hf
    cases hk
  | skip _ _ _ ih => exact ih hf
  | token hl hs hg =>
    obtain ⟨rfl, rfl, rfl, rfl⟩ := Finding.token.inj hf
    obtain ⟨v, hv⟩ := hl.found.stands
    rw [Text.slice_of_drop_eq_append hv.symm]
    exact ⟨_, _, hl.found.matched, hs, rfl, hg⟩
  | illegal _ _ => cases hf

/-- All tokens that are passed are pieces by themselves. -/
theorem Passes.spells (h : Passes source i tokens j) :
    ∀ t ∈ tokens, t.kind.isEnd = false ∧ Spells (t.piece source) := by
  induction h with
  | nil i => exact nofun
  | cons hf hk _ ih => exact List.forall_mem_cons.mpr ⟨⟨hk, hf.spells hk⟩, ih⟩

/-- Pieces with single spaces between them are the tokens that the rules give there, up to the end
of the text. -/
theorem yields_of_spacedAt (hx : ∀ x ∈ xs, x.kind.isEnd = false ∧ Spells x)
    (hi : i ≤ source.length) (h : source.SpacedAt i (xs.map Piece.text)) :
    let len := source.length
    ∃ tokens, Yields source i tokens (.token (.bootstrap .endOfInput) none len len) ∧
      tokens.map (Token.piece source) = xs := by
  intro len
  induction xs generalizing i with
  | nil =>
    obtain rfl := h.eq_length hi
    exact ⟨[], ⟨_, .nil _, .atEnd⟩, rfl⟩
  | cons x xs ih =>
    obtain ⟨⟨hk, hspells⟩, hxs⟩ := List.forall_mem_cons.mp hx
    obtain ⟨j, hj, hd, hrest⟩ := h.cons
    have hf := hspells.finds hd fun _ hc => Text.eq_space_of_spacedBefore hc
    have hstop := (hf.gap_of_token none).2.stop_le
    obtain ⟨tokens, hyields, hpieces⟩ := ih hxs hstop hrest
    have hfound : Finds source i (.token x.kind x.value j (j + x.text.length)) := by
      rcases hj with rfl | ⟨rfl, hspace⟩
      · exact hf
      · exact finds_of_gap (.single (.blank hspace (by decide))) hf
    refine ⟨_, .cons hfound hk hyields, ?_⟩
    rw [List.map_cons, hpieces, Token.piece, tokenOf, Text.slice_of_drop_eq_append hd]

end MiniLex.Bootstrap
