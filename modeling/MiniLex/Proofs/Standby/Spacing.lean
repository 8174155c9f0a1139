import MiniLex.Proofs.Standby.OpenName
import MiniLex.Proofs.Standby.Seam
import MiniLex.Proofs.Text.Spacing

/-!
# Standby tokens with single spaces between them

A token of a standby list is read the same if its text is all there is
(`Reads.alone`), and so it is wherever its text stands before a space
(`Spells.reads_at`), if it is no quoted name that never ends: such a name takes
everything behind it, so it can only be the last. Pieces that are tokens by
themselves (`Spells`) are the tokens of the list in which single spaces stand
between them: `lists_of_spacedAt`. Those of any list are such pieces:
`Lists.spells`.
-/

namespace MiniLex

namespace Text

variable {t : Text} {P : Char → Prop} {start stop : Nat}

theorem slice_self (t : Text) : t.slice 0 t.length = t := by
  rw [slice_length]
  rfl

theorem head?_slice (h : start < stop) : (t.slice start stop).head? = t[start]? := by
  rw [slice, List.head?_take, List.head?_drop, if_neg (by omega)]

/-- A longest run that is all there is. -/
theorem LongestRun.alone (h : t.LongestRun P start stop) :
    (t.slice start stop).LongestRun P 0 (t.slice start stop).length := by
  refine ⟨Nat.zero_le _, Nat.le_refl _, fun i _ hi => ?_, fun c hc => ?_⟩
  · exact ⟨_, List.getElem?_eq_getElem hi, h.of_mem_slice (List.getElem_mem hi)⟩
  · exact absurd (List.getElem?_eq_some_iff.mp hc).1 (Nat.lt_irrefl _)

end Text

namespace Standby

variable {source v : Text} {i p : Nat} {t : Token} {x : Piece} {xs : List Piece}
  {tokens : List Token}

/-! ## One token -/

/-- A piece is the one token of its text, which begins with no blank. -/
structure Spells (x : Piece) : Prop where
  not_end : x.kind.isEnd = false
  reads : Reads x.text 0 ⟨x.kind, x.value, 0, x.text.length, none⟩
  not_blank : ∀ c, x.text.head? = some c → ¬Blank c

/-- A piece of a quoted name that never ends: junk that begins with a quote. -/
def IsOpenPiece (x : Piece) : Prop := x.kind = .standby .junk ∧ x.text.head? = some '"'

instance (x : Piece) : Decidable (IsOpenPiece x) := inferInstanceAs (Decidable (_ ∧ _))

/-- A token is read from its text alone. -/
theorem Reads.alone (h : Reads source p t) (hk : t.kind.isEnd = false) :
    Reads (source.slice p t.stop) 0
      ⟨t.kind, t.value, 0, (source.slice p t.stop).length, none⟩ := by
  have hfirst : ∀ {c : Char}, p < t.stop → source[p]? = some c →
      (source.slice p t.stop)[0]? = some c := by
    intro c hlt hc
    rw [← List.head?_eq_getElem?, Text.head?_slice hlt, hc]
  obtain ⟨hstart, hin⟩ := h.standsIn
  have hlt : p < t.stop := hstart ▸ hin.takes hk
  cases h with
  | atEnd _ => cases hk
  | any hc hs hr hw => exact .any (hfirst hlt hc) hs hr.alone (by rwa [Text.slice_self])
  | first hc hs hr hw => exact .first (hfirst hlt hc) hs hr.alone (by rwa [Text.slice_self])
  | name hc hs hr ha hf =>
    have hname := Reads.name (hfirst hlt hc) hs hr.alone
    rw [Text.slice_self] at hname
    exact hname ha hf
  | number hc hd hr =>
    have hnumber := Reads.number (hfirst hlt hc) hd hr.alone
    rwa [Text.slice_self] at hnumber
  | star hc =>
    rw [Text.slice_of_getElem? hc]
    exact .star rfl
  | comma hc =>
    rw [Text.slice_of_getElem? hc]
    exact .comma rfl
  | leftParen hc =>
    rw [Text.slice_of_getElem? hc]
    exact .leftParen rfl
  | rightParen hc =>
    rw [Text.slice_of_getElem? hc]
    exact .rightParen rfl
  | @quoted inside value rest hd hdec hr =>
    have hsplit : source.drop p = ('"' :: (inside ++ ['"'])) ++ rest := by rw [hd]; simp
    have htext : source.slice p (p + (inside.length + 2)) = '"' :: (inside ++ ['"']) := by
      have hslice := Text.slice_of_drop_eq_append hsplit
      rwa [List.length_cons, List.length_append, List.length_singleton, Nat.add_assoc] at hslice
    have hwhole : ('"' :: (inside ++ ['"'])).drop 0 = '"' :: (inside ++ '"' :: []) := rfl
    have hquoted := Reads.quoted hwhole hdec nofun
    dsimp only
    rw [htext]
    simpa using hquoted
  | unclosed hd hdec =>
    dsimp only
    rw [Text.slice_length, hd]
    exact .unclosed rfl hdec
  | junk hc hs hd hn =>
    rw [Text.slice_of_getElem? hc]
    exact .junk rfl hs hd hn

/-- A token behind blanks is a piece by itself. -/
theorem Reads.spells (hb : source.LongestRun Blank i t.start) (h : Reads source t.start t)
    (hk : t.kind.isEnd = false) : Spells (t.piece source) := by
  refine ⟨hk, h.alone hk, fun c hc => ?_⟩
  rw [Token.piece, Text.head?_slice (h.standsIn.2.takes hk)] at hc
  exact hb.next c hc

theorem Spells.ne_nil (h : Spells x) : x.text ≠ [] := by
  intro hnil
  have hlt := h.reads.standsIn.2.takes h.not_end
  rw [hnil] at hlt
  exact Nat.lt_irrefl _ hlt

theorem Spells.unclosed_iff (h : Spells x) : Unclosed x.text 0 ↔ IsOpenPiece x := by
  rw [IsOpenPiece, List.head?_eq_getElem?]
  exact unclosed_iff_isOpenName (t := ⟨x.kind, x.value, 0, x.text.length, none⟩) h.reads

/-- A piece is read where its text stands before a space or at the end, and before a space only if it
is closed. -/
theorem Spells.reads_at (h : Spells x) (hd : source.drop p = x.text ++ v)
    (hv : ∀ c, v.head? = some c → c = ' ') (hopen : IsOpenPiece x → v = []) :
    Reads source p ⟨x.kind, x.value, p, p + x.text.length, none⟩ := by
  have hp : p ≤ source.length := by
    have hlen := Text.length_of_drop_eq_append hd h.ne_nil
    omega
  have hfirst : Reads (source.drop p) 0 ⟨x.kind, x.value, 0, x.text.length, none⟩ := by
    rw [hd]
    cases v with
    | nil =>
      rw [List.append_nil]
      exact h.reads
    | cons c v =>
      obtain rfl : c = ' ' := hv c rfl
      have htake : (x.text ++ ' ' :: v).take x.text.length = x.text := List.take_left
      refine Reads.of_take (n := x.text.length) (c := ' ') (by simp) (by simp [Blank]) ?_
        h.not_end ?_
      · rw [htake]
        exact h.reads
      · rw [htake, h.unclosed_iff]
        exact fun ho => absurd (hopen ho) (by simp)
  exact hfirst.of_drop hp

/-! ## All tokens -/

/-- Pieces by themselves, of which only the last may be a quoted name that never ends. -/
inductive AllSpell : List Piece → Prop
  | nil : AllSpell []
  | cons {x : Piece} {xs : List Piece} :
    Spells x → (IsOpenPiece x → xs = []) → AllSpell xs → AllSpell (x :: xs)

theorem isOpenPiece_iff (h : Reads source t.start t) (hk : t.kind.isEnd = false) :
    IsOpenPiece (t.piece source) ↔ Unclosed source t.start := by
  rw [unclosed_iff_isOpenName h, IsOpenPiece, Token.piece, Text.head?_slice (h.standsIn.2.takes hk)]
  rfl

theorem Reads.content_of_isEnd (h : Reads source p t) (hk : t.kind.isEnd = true) :
    t.content = (.standby .endOfInput, none) := by
  cases h with
  | atEnd _ => rfl
  | _ => cases hk

/-- The tokens of a list are pieces by themselves. -/
theorem Lists.spells (h : Lists source i tokens) :
    ∃ front last, tokens = front ++ [last] ∧ last.kind.isEnd = true ∧
      last.content = (.standby .endOfInput, none) ∧ (∀ t ∈ front, t.kind.isEnd = false) ∧
      AllSpell (front.map (Token.piece source)) := by
  induction h with
  | @last i t _ hr hk => exact ⟨[], t, rfl, hk, hr.content_of_isEnd hk, nofun, .nil⟩
  | @cons i t tokens hb hr hk hrest ih =>
    obtain ⟨front, last, rfl, hlast, hcontent, hfront, hspell⟩ := ih
    refine ⟨t :: front, last, rfl, hlast, hcontent, List.forall_mem_cons.mpr ⟨hk, hfront⟩, ?_⟩
    refine .cons (hr.spells hb hk) (fun hopen => ?_) hspell
    -- Behind a quoted name that never ends nothing but the end is left.
    have hstop := stop_of_unclosed hr ((isOpenPiece_iff hr hk).mp hopen)
    have hlen := hrest.cuts.length_add_le fun _ _ hg => hg.le
    rw [List.length_append, List.length_singleton, hstop] at hlen
    rw [List.eq_nil_of_length_eq_zero (by omega : front.length = 0), List.map_nil]

/-- A quoted name that never ends is among the tokens where it is among their pieces. -/
theorem Lists.exists_unclosed_iff {front : List Token} {last : Token}
    (h : Lists source i (front ++ [last])) (hlast : last.kind.isEnd = true)
    (hfront : ∀ t ∈ front, t.kind.isEnd = false) :
    (∃ t ∈ front ++ [last], Unclosed source t.start) ↔
      ∃ x ∈ front.map (Token.piece source), IsOpenPiece x := by
  have hreads := h.reads
  constructor
  · rintro ⟨t, ht, hu⟩
    rcases List.mem_append.mp ht with hmem | hmem
    · exact ⟨_, List.mem_map_of_mem hmem,
        (isOpenPiece_iff (hreads t ht) (hfront t hmem)).mpr hu⟩
    · obtain rfl := List.mem_singleton.mp hmem
      rw [((unclosed_iff_isOpenName (hreads t ht)).mp hu).1] at hlast
      cases hlast
  · rintro ⟨_, hmem, hopen⟩
    obtain ⟨t, ht, rfl⟩ := List.mem_map.mp hmem
    have hmem := List.mem_append_left [last] ht
    exact ⟨t, hmem, (isOpenPiece_iff (hreads t hmem) (hfront t ht)).mp hopen⟩

/-- Pieces with single spaces between them are the tokens that the rules give there. -/
theorem lists_of_spacedAt (hx : AllSpell xs) (hi : i ≤ source.length)
    (h : source.SpacedAt i (xs.map Piece.text)) :
    let len := source.length
    ∃ front, Lists source i (front ++ [⟨.standby .endOfInput, none, len, len, none⟩]) ∧
      (∀ t ∈ front, t.kind.isEnd = false) ∧ front.map (Token.piece source) = xs := by
  intro len
  induction hx generalizing i with
  | nil =>
    obtain rfl := h.eq_length hi
    let last : Token := ⟨.standby .endOfInput, none, len, len, none⟩
    have hlists : Lists source last.stop [last] := Lists.of_isEnd (.atEnd rfl) rfl
    exact ⟨[], hlists, nofun, rfl⟩
  | @cons x xs hspells hopen _ ih =>
    obtain ⟨j, hj, hd, hrest⟩ := h.cons
    have hread := hspells.reads_at hd (fun _ hc => Text.eq_space_of_spacedBefore hc) fun ho => by
      rw [hopen ho]
      rfl
    have hin := hread.standsIn.2
    obtain ⟨front, hlists, hfront, hpieces⟩ := ih hin.stop_le hrest
    have hself : source.LongestRun Blank j j := by
      refine Text.longestRun_self (Nat.le_trans hin.start_le hin.stop_le) fun c hc => ?_
      rw [← List.head?_drop, hd, List.head?_append_of_ne_nil _ hspells.ne_nil] at hc
      exact hspells.not_blank c hc
    have hblanks : source.LongestRun Blank i j := by
      rcases hj with rfl | ⟨rfl, hspace⟩
      · exact hself
      · refine hself.of_all (Nat.le_succ i) fun k hk hk' => ?_
        obtain rfl := Nat.le_antisymm (Nat.le_of_lt_succ hk') hk
        exact ⟨' ', hspace, by simp [Blank]⟩
    refine ⟨⟨x.kind, x.value, j, j + x.text.length, none⟩ :: front,
      .cons hblanks hread hspells.not_end hlists,
      List.forall_mem_cons.mpr ⟨hspells.not_end, hfront⟩, ?_⟩
    rw [List.map_cons, hpieces, Token.piece, Text.slice_of_drop_eq_append hd]

end Standby

end MiniLex
