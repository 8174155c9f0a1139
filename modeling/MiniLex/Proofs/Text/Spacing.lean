import MiniLex.Proofs.Text.Offsets
import MiniLex.Token

/-!
# Texts with single spaces between them

The text that is put together from others with single spaces between them
(`Text.spaced`), and what stands in it at the offsets where these begin:
`SpacedAt.cons` for the first of them, with all others behind it, and
`SpacedAt.eq_length` where there is none left.

A token that is taken out of its source is a `Piece`: its text, kind and value,
without the place where it stood.
-/

namespace MiniLex

namespace Text

variable {source w : Text} {ws : List Text} {i : Nat}

/-- Texts with single spaces between them. -/
def spaced (ws : List Text) : Text := [' '].intercalate ws

/-- Texts with a space before each of them. -/
def spacedBefore (ws : List Text) : Text := ws.flatMap (' ' :: ·)

theorem spaced_cons (w : Text) (ws : List Text) : spaced (w :: ws) = w ++ spacedBefore ws := by
  induction ws generalizing w with
  | nil => simp [spaced, spacedBefore]
  | cons w' ws ih =>
    have hrest : spaced (w :: w' :: ws) = w ++ ' ' :: spaced (w' :: ws) := by
      simp [spaced, List.intercalate, List.intersperse]
    rw [hrest, ih, spacedBefore, spacedBefore, List.flatMap_cons, List.cons_append]

/-- From an offset on a text consists of these with single spaces between them, and perhaps a space
before the first. -/
def SpacedAt (source : Text) (i : Nat) (ws : List Text) : Prop :=
  source.drop i = spaced ws ∨ source.drop i = spacedBefore ws

theorem spacedAt_zero (ws : List Text) : SpacedAt (spaced ws) 0 ws := .inl rfl

theorem SpacedAt.eq_length (h : SpacedAt source i []) (hi : i ≤ source.length) :
    i = source.length := by
  have hnil : source.drop i = [] := h.elim id id
  exact Nat.le_antisymm hi (List.drop_eq_nil_iff.mp hnil)

/-- The first of the texts stands there, or right behind a space. A space follows it, or nothing if
there is no other. -/
theorem SpacedAt.cons (h : SpacedAt source i (w :: ws)) :
    ∃ j, (j = i ∨ j = i + 1 ∧ source[i]? = some ' ') ∧
      source.drop j = w ++ spacedBefore ws ∧ SpacedAt source (j + w.length) ws := by
  rcases h with hd | hd
  · rw [spaced_cons] at hd
    exact ⟨i, .inl rfl, hd, .inr (drop_add_of_drop_eq_append hd)⟩
  · rw [spacedBefore, List.flatMap_cons, List.cons_append] at hd
    have hnext : source.drop (i + 1) = w ++ spacedBefore ws := by
      rw [← List.drop_drop, hd]
      rfl
    exact ⟨i + 1, .inr ⟨rfl, getElem?_of_drop_eq_cons hd⟩, hnext,
      .inr (drop_add_of_drop_eq_append hnext)⟩

theorem eq_space_of_spacedBefore {c : Char} (h : (spacedBefore ws).head? = some c) : c = ' ' := by
  cases ws with
  | nil => cases h
  | cons w ws => exact (Option.some.inj h).symm

end Text

/-- A token without its place: the text that it stands for, its kind and its value. -/
structure Piece where
  text : Text
  kind : TokenKind
  value : Option Text
  deriving DecidableEq

/-- What a piece says: its kind and its value. -/
def Piece.content (x : Piece) : TokenKind × Option Text := (x.kind, x.value)

namespace Token

/-- What a token says: its kind and its value. -/
def content (t : Token) : TokenKind × Option Text := (t.kind, t.value)

/-- A token taken out of its source. -/
def piece (source : Text) (t : Token) : Piece :=
  ⟨source.slice t.start t.stop, t.kind, t.value⟩

theorem content_comp_piece (source : Text) : Piece.content ∘ piece source = content := rfl

/-- The texts of all tokens but the end token, with single spaces between them. -/
def respaced (source : Text) (tokens : List Token) : Text :=
  Text.spaced <| (tokens.filter fun t => !t.kind.isEnd).map fun t => source.slice t.start t.stop

theorem respaced_concat {source : Text} {front : List Token} {last : Token}
    (hlast : last.kind.isEnd = true) (hfront : ∀ t ∈ front, t.kind.isEnd = false) :
    respaced source (front ++ [last]) =
      Text.spaced ((front.map (piece source)).map Piece.text) := by
  have hfilter : (front ++ [last]).filter (fun t => !t.kind.isEnd) = front := by
    rw [List.filter_append, List.filter_eq_self.mpr fun t ht => by simp [hfront t ht],
      List.filter_cons_of_neg (by simp [hlast]), List.filter_nil, List.append_nil]
  rw [respaced, hfilter, List.map_map]
  rfl

end Token

end MiniLex
