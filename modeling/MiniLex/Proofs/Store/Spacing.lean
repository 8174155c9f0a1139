import MiniLex.Proofs.Bootstrap.CleanPrefix
import MiniLex.Proofs.Bootstrap.Joining
import MiniLex.Proofs.Bootstrap.Spacing
import MiniLex.Proofs.Standby.Joining
import MiniLex.Proofs.Standby.Spacing

/-!
# What stands between tokens says nothing

The texts of the tokens of a source, with single spaces between them in place of
whatever blanks, line ends and comments there were, or of nothing at all, are
scanned as the same tokens with the same values, and a standby scan keeps the
same error: `tokenize_respaced`.

Any pieces that are tokens by themselves are scanned so (`tokenize_pieces`), in
particular one alone; those of a source that is tokenized are such pieces
(`pieces_of_tokenize_ok`).
-/

namespace MiniLex

/-- Pieces that are tokens of a language by themselves, one after the other. -/
def Language.Spell : Language → List Piece → Prop
  | bootstrap, xs => ∀ x ∈ xs, x.kind.isEnd = false ∧ Bootstrap.Spells x
  | standby, xs => Standby.AllSpell xs

theorem Language.Spell.of_mem {l : Language} {xs : List Piece} {x : Piece} (h : l.Spell xs)
    (hx : x ∈ xs) : l.Spell [x] := by
  cases l with
  | bootstrap =>
    intro y hy
    obtain rfl := List.mem_singleton.mp hy
    exact h y hx
  | standby =>
    replace h : Standby.AllSpell xs := h
    induction h with
    | nil => cases hx
    | cons hspells _ hrest ih =>
      rcases List.mem_cons.mp hx with rfl | hx
      · exact .cons hspells (fun _ => rfl) .nil
      · exact ih hx

/-- The error that a standby scan keeps which returns these pieces. -/
def Standby.errorOf (xs : List Piece) : Option Diagnostic :=
  if ∃ x ∈ xs, IsOpenPiece x then some ⟨Scanner.unterminated, []⟩ else none

namespace Store

variable {e : Ambient} {l : Language} {r : Request} {st st' : Store} {tokens : List Token}
  {xs : List Piece}

/-- The error of a standby scan is that of the pieces that it returns. -/
theorem error_of_lists {source : Text} {i : Nat} {front : List Token} {last : Token}
    {after : Option Diagnostic} (h : Standby.Lists source i (front ++ [last]))
    (hlast : last.kind.isEnd = true) (hfront : ∀ t ∈ front, t.kind.isEnd = false)
    (hrecords : Scanner.Records source (front ++ [last]) none after) :
    after = Standby.errorOf (front.map (Token.piece source)) := by
  have hiff := h.exists_unclosed_iff hlast hfront
  rw [Standby.errorOf]
  split
  · rename_i hopen
    exact hrecords.unclosed (hiff.mpr hopen)
  · rename_i hnone
    exact hrecords.same fun t ht hu => hnone (hiff.mp ⟨t, ht, hu⟩)

/-- The tokens of a source are pieces by themselves, and then the end token. -/
theorem pieces_of_tokenize_ok (h : tokenize e l r st = .ok tokens st') :
    ∃ front last, tokens = front ++ [last] ∧ last.kind.isEnd = true ∧
      last.content = (l.endKind, none) ∧ (∀ t ∈ front, t.kind.isEnd = false) ∧
      l.Spell (front.map (Token.piece r.source)) ∧
      (l = .standby → (st'.scan st.scans.length).progress.error =
        Standby.errorOf (front.map (Token.piece r.source))) := by
  cases l with
  | bootstrap =>
    obtain ⟨front, rfl, j, hpass, -⟩ := yields_of_tokenize_ok h
    have hspells := hpass.spells
    refine ⟨front, _, rfl, rfl, rfl, fun t ht => (hspells t ht).1, ?_, nofun⟩
    exact List.forall_mem_map.mpr hspells
  | standby =>
    obtain ⟨hlists, hrecords⟩ := lists_of_tokenize_ok h
    obtain ⟨front, last, rfl, hlast, hcontent, hfront, hspell⟩ := hlists.spells
    exact ⟨front, last, rfl, hlast, hcontent, hfront, hspell,
      fun _ => error_of_lists hlists hlast hfront hrecords⟩

/-- Where the allocator never fails, pieces that are tokens by themselves are scanned as these if
single spaces stand between them. -/
theorem tokenize_pieces (hx : l.Spell xs) (hr : r.source = Text.spaced (xs.map Piece.text))
    (hs : st.host.memory.Serves (r.scanner e (some l) st.scans.length).allocator) :
    ∃ tokens st', tokenize e l r st = .ok tokens st' ∧
      tokens.map Token.content = xs.map Piece.content ++ [(l.endKind, none)] ∧
      (l = .standby → (st'.scan st.scans.length).progress.error = Standby.errorOf xs) := by
  have hspaced : r.source.SpacedAt 0 (xs.map Piece.text) := hr ▸ Text.spacedAt_zero _
  cases l with
  | bootstrap =>
    obtain ⟨front, ⟨j, hpass, hend⟩, rfl⟩ :=
      Bootstrap.yields_of_spacedAt hx (Nat.zero_le _) hspaced
    obtain ⟨st', h⟩ := tokenize_of_end hs hpass hend
    refine ⟨_, st', h, ?_, nofun⟩
    rw [List.map_append, List.map_map, Token.content_comp_piece]
    rfl
  | standby =>
    obtain ⟨front, hlists, hfront, rfl⟩ :=
      Standby.lists_of_spacedAt hx (Nat.zero_le _) hspaced
    obtain ⟨st', ⟨tokens, h⟩ | ⟨hboot, -⟩⟩ := tokenize_run (e := e) hs
    · obtain ⟨hlists', hrecords⟩ := lists_of_tokenize_ok h
      obtain rfl := hlists'.unique hlists
      refine ⟨_, st', h, ?_, fun _ => error_of_lists hlists rfl hfront hrecords⟩
      rw [List.map_append, List.map_map, Token.content_comp_piece]
      rfl
    · cases hboot

/-- Blanks, line ends and comments carry no meaning. If a source is tokenized, the texts of its
tokens with single spaces between them are scanned as tokens of the same kinds and values, and with
the same error if it is a standby list; and the text of each of them alone is scanned as that token
and the end token. A standby list is tokenized always. -/
theorem tokenize_respaced (e : Ambient) (l : Language) (r : Request) (st : Store) :
    (∀ tokens st₁, tokenize e l r st = .ok tokens st₁ →
      ∀ (e' : Ambient) (r' : Request) (st' : Store),
        st'.host.memory.Serves (r'.scanner e' (some l) st'.scans.length).allocator →
        (r'.source = Token.respaced r.source tokens →
          ∃ tokens' st₁', tokenize e' l r' st' = .ok tokens' st₁' ∧
            tokens'.map Token.content = tokens.map Token.content ∧
            (l = .standby → (st₁'.scan st'.scans.length).progress.error =
              (st₁.scan st.scans.length).progress.error)) ∧
        ∀ t ∈ tokens, t.kind.isEnd = false → r'.source = r.source.slice t.start t.stop →
          ∃ tokens' st₁', tokenize e' l r' st' = .ok tokens' st₁' ∧
            tokens'.map Token.content = [t.content, (l.endKind, none)]) ∧
    (l = .standby → st.host.memory.Serves (r.scanner e (some l) st.scans.length).allocator →
      ∃ tokens st₁, tokenize e l r st = .ok tokens st₁) := by
  refine ⟨fun tokens st₁ h e' r' st' hs' => ?_, fun hl hs => ?_⟩
  · obtain ⟨front, last, rfl, hlast, hcontent, hfront, hspell, herror⟩ := pieces_of_tokenize_ok h
    refine ⟨fun hr => ?_, fun t ht hk hr => ?_⟩
    · rw [Token.respaced_concat hlast hfront] at hr
      obtain ⟨tokens', st₁', h', hcontents, herror'⟩ := tokenize_pieces hspell hr hs'
      refine ⟨tokens', st₁', h', ?_, fun hl => (herror' hl).trans (herror hl).symm⟩
      rw [hcontents, List.map_append, List.map_map, Token.content_comp_piece, ← hcontent]
      rfl
    · have hmem : t ∈ front := (List.mem_append.mp ht).resolve_right fun hl => by
        rw [List.mem_singleton.mp hl, hlast] at hk
        cases hk
      have hone := hspell.of_mem (List.mem_map_of_mem (f := Token.piece r.source) hmem)
      have hr' : r'.source = Text.spaced ([t.piece r.source].map Piece.text) := by
        rw [hr, List.map_singleton, Text.spaced_cons]
        exact (List.append_nil _).symm
      obtain ⟨tokens', st₁', h', hcontents, -⟩ := tokenize_pieces hone hr' hs'
      exact ⟨tokens', st₁', h', hcontents⟩
  · obtain ⟨st₁, ⟨tokens, h⟩ | ⟨hboot, -⟩⟩ := tokenize_run (e := e) hs
    · exact ⟨tokens, st₁, h⟩
    · rw [hl] at hboot
      cases hboot

/-- A word, a quoted name and a number with nothing between them, and on the next line a quoted name
that never ends. -/
theorem tokenize_respaced_adjacent :
    let source : Text := ['a', '"', 'b', '"', '1', '\n', '"', 'x']
    let content : List (TokenKind × Option Text) := [(.standby .name, some ['a']),
      (.standby .name, some ['b']), (.standby .number, some ['1']), (.standby .junk, none),
      (.standby .endOfInput, none)]
    ∃ tokens st₁ tokens' st₁',
      tokenize .initial .standby ⟨source, none, .nothing⟩ .initial = .ok tokens st₁ ∧
      tokens.map Token.content = content ∧
      tokenize .initial .standby
        ⟨['a', ' ', '"', 'b', '"', ' ', '1', ' ', '"', 'x'], none, .nothing⟩ .initial =
          .ok tokens' st₁' ∧
      tokens'.map Token.content = content ∧
      (st₁'.scan 0).progress.error = some ⟨Scanner.unterminated, []⟩ := by
  intro source content
  obtain ⟨hrespaced, hreturns⟩ :=
    tokenize_respaced .initial .standby ⟨source, none, .nothing⟩ .initial
  obtain ⟨tokens, st₁, h⟩ := hreturns rfl trivial
  have hrun : (match tokenize .initial .standby ⟨source, none, .nothing⟩ .initial with
      | .ok tokens st₁ => some (tokens.map Token.content, Token.respaced source tokens,
          (st₁.scan 0).progress.error)
      | .error _ _ => none) = some (content, ['a', ' ', '"', 'b', '"', ' ', '1', ' ', '"', 'x'],
          some ⟨Scanner.unterminated, []⟩) := by
    decide +kernel
  rw [h] at hrun
  obtain ⟨hcontent, hrest⟩ := Prod.mk.inj (Option.some.inj hrun)
  obtain ⟨hsource, herror⟩ := Prod.mk.inj hrest
  obtain ⟨tokens', st₁', h', hcontents, herror'⟩ := (hrespaced tokens st₁ h .initial
    ⟨['a', ' ', '"', 'b', '"', ' ', '1', ' ', '"', 'x'], none, .nothing⟩ .initial trivial).1
      hsource.symm
  exact ⟨tokens, st₁, tokens', st₁', h, hcontent, h', hcontents.trans hcontent,
    (herror' rfl).trans herror⟩

end Store

end MiniLex
