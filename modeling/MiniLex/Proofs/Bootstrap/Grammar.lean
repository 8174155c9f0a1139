import MiniLex.Proofs.Bootstrap.Gap
import MiniLex.Proofs.Text.Doubled
import MiniLex.Proofs.Text.Letters

/-!
# The rules of the bootstrap language as a grammar

Each rule of the bootstrap language matches a regular set of texts
(`Rule.Matches`). Among all rules the longest match counts (`LongestMatch`):
some rules skip what they match, the others make it a token (`Rule.Gives`), and
`Finds` says what is found so from an offset on.

* `Rule.Matches.eq_ofFirst`: no two rules match texts with the same first
  character, so a longest match is unique (`LongestMatch.unique`);
* `exists_longestMatch_of_gapPiece`, `LongestMatch.gapPiece`: the pieces of a
  gap are the longest matches of the rules that skip.
-/

namespace MiniLex.Bootstrap

variable {source w w' : Text} {i : Nat} {c : Char}

/-- Characters of words: ASCII letters and digits, hyphen and underscore. -/
def WordChar (c : Char) : Prop :=
  ('A' ≤ c ∧ c ≤ 'Z') ∨ ('a' ≤ c ∧ c ≤ 'z') ∨ ('0' ≤ c ∧ c ≤ '9') ∨ c = '-' ∨ c = '_'

/-- The rules of the bootstrap language. -/
inductive Rule where
  | lineEnd
  | blank
  | comment
  | word
  | string
  | mark
  deriving DecidableEq

namespace Rule

/-- The texts that a rule matches. A string has apostrophes around it, and doubles those inside. -/
inductive Matches : Rule → Text → Prop
  | lineEnd : Matches .lineEnd ['\n']
  | blank {c : Char} : c ∈ [' ', '\t', '\r'] → Matches .blank [c]
  | comment {t : Text} : '\n' ∉ t → Matches .comment ('#' :: t)
  | word {t : Text} : t ≠ [] → (∀ c ∈ t, WordChar c) → Matches .word t
  | string {inside value : Text} : Doubled.Decodes apostrophe inside value →
    Matches .string (apostrophe :: (inside ++ [apostrophe]))
  | mark {c : Char} : c ∈ [',', '=', '(', ')'] → Matches .mark [c]

/-- Whether what a rule matches is skipped. -/
def isSkipped : Rule → Bool
  | lineEnd | blank | comment => true
  | word | string | mark => false

/-- The kind and the value of the token that a rule makes of what it matches. -/
inductive Gives : Rule → Text → Kind → Option Text → Prop
  | keyword (k : Keyword) : Gives .word k.spelling (.keyword k) (some k.spelling)
  | nullLiteral : Gives .word Kind.nullLiteral .nullValue none
  | ident {t : Text} : (∀ k : Keyword, k.spelling ≠ t) → t ≠ Kind.nullLiteral →
    Gives .word t .ident (some t)
  | string {inside value : Text} : Doubled.Decodes apostrophe inside value →
    Gives .string (apostrophe :: (inside ++ [apostrophe])) .ident (some value)
  | comma : Gives .mark [','] .comma none
  | equals : Gives .mark ['='] .equals none
  | leftParen : Gives .mark ['('] .leftParen none
  | rightParen : Gives .mark [')'] .rightParen none

/-- A rule matches the text that stands at an offset. Comments begin in the first column. -/
structure MatchesAt (r : Rule) (source : Text) (i : Nat) (w : Text) : Prop where
  column : r = .comment → LineStart source i
  matched : r.Matches w
  stands : w <+: source.drop i

end Rule

/-- A rule's match at an offset is as long as any match of any rule there. -/
structure LongestMatch (source : Text) (i : Nat) (r : Rule) (w : Text) : Prop where
  found : r.MatchesAt source i w
  longest : ∀ r' w', Rule.MatchesAt r' source i w' → w'.length ≤ w.length

/-- What can be found in a text. -/
inductive Finding where
  /-- A token, between two offsets. -/
  | token (kind : TokenKind) (value : Option Text) (start stop : Nat)
  /-- A character at an offset, where no rule matches anything. -/
  | illegal (c : Char) (i : Nat)
  deriving DecidableEq

/-- What is found from an offset on: longest matches are skipped up to the first that makes a
token, the end of the text, or a character at which no rule matches anything. -/
inductive Finds (source : Text) : Nat → Finding → Prop
  | atEnd :
    Finds source source.length (.token (.bootstrap .endOfInput) none source.length source.length)
  | skip {i : Nat} {r : Rule} {w : Text} {f : Finding} : LongestMatch source i r w →
    r.isSkipped = true → Finds source (i + w.length) f → Finds source i f
  | token {i : Nat} {r : Rule} {w : Text} {kind : Kind} {value : Option Text} :
    LongestMatch source i r w → r.isSkipped = false → r.Gives w kind value →
    Finds source i (.token (.bootstrap kind) value i (i + w.length))
  | illegal {i : Nat} {c : Char} : source[i]? = some c →
    (∀ r w, Rule.MatchesAt r source i w → w = []) → Finds source i (.illegal c i)

/-! ## Classes of characters -/

theorem isWordChar_iff : isWordChar c = true ↔ WordChar c := by
  have halphanum : c.isAlphanum = (c.isAlpha || c.isDigit) := rfl
  simp only [isWordChar, WordChar, halphanum, Bool.or_eq_true, Text.isAlpha_iff, Text.isDigit_iff,
    beq_iff_eq, or_assoc]

/-! ## Matches are told apart by their first character -/

namespace Rule

/-- The rule that a match with this first character is a match of. -/
def ofFirst (c : Char) : Rule :=
  if c = '\n' then .lineEnd
  else if isBlank c then .blank
  else if c = '#' then .comment
  else if isWordChar c then .word
  else if c = apostrophe then .string
  else .mark

theorem Matches.eq_ofFirst {r : Rule} (h : r.Matches w) : ∃ c t, w = c :: t ∧ r = ofFirst c := by
  cases h with
  | lineEnd => exact ⟨_, _, rfl, by decide⟩
  | blank hc =>
    refine ⟨_, _, rfl, ?_⟩
    simp only [List.mem_cons, List.not_mem_nil, or_false] at hc
    rcases hc with rfl | rfl | rfl <;> decide
  | comment _ => exact ⟨_, _, rfl, by decide⟩
  | word hne hall =>
    obtain ⟨c, t, rfl⟩ := List.exists_cons_of_ne_nil hne
    have hc : isWordChar c = true := isWordChar_iff.mpr (hall c List.mem_cons_self)
    have hn : c ≠ '\n' := by rintro rfl; exact absurd hc (by decide)
    have hh : c ≠ '#' := by rintro rfl; exact absurd hc (by decide)
    have hb : isBlank c = false := by
      refine Bool.eq_false_iff.mpr fun hb => ?_
      have := isBlank_iff.mp hb
      simp only [List.mem_cons, List.not_mem_nil, or_false] at this
      rcases this with rfl | rfl | rfl <;> exact absurd hc (by decide)
    exact ⟨c, t, rfl, by simp [ofFirst, hn, hh, hb, hc]⟩
  | string _ => exact ⟨_, _, rfl, by decide⟩
  | mark hc =>
    refine ⟨_, _, rfl, ?_⟩
    simp only [List.mem_cons, List.not_mem_nil, or_false] at hc
    rcases hc with rfl | rfl | rfl | rfl <;> decide

theorem MatchesAt.eq_ofFirst {r : Rule} (h : r.MatchesAt source i w) :
    ∃ c t, w = c :: t ∧ source[i]? = some c ∧ r = ofFirst c := by
  obtain ⟨c, t, rfl, hr⟩ := h.matched.eq_ofFirst
  obtain ⟨v, hv⟩ := h.stands
  exact ⟨c, t, rfl, Text.getElem?_of_drop_eq_cons (hv.symm : source.drop i = c :: (t ++ v)), hr⟩

/-- All matches at an offset are of one rule. -/
theorem MatchesAt.rule_eq {r r' : Rule} (h : r.MatchesAt source i w)
    (h' : r'.MatchesAt source i w') : r = r' := by
  obtain ⟨c, _, _, hc, rfl⟩ := h.eq_ofFirst
  obtain ⟨c', _, _, hc', rfl⟩ := h'.eq_ofFirst
  rw [Option.some.inj (hc.symm.trans hc')]

end Rule

theorem LongestMatch.unique {r r' : Rule} (h : LongestMatch source i r w)
    (h' : LongestMatch source i r' w') : r = r' ∧ w = w' := by
  refine ⟨h.found.rule_eq h'.found, ?_⟩
  refine (List.prefix_of_prefix_length_le h.found.stands h'.found.stands
    (h'.longest _ _ h.found)).eq_of_length_le (h.longest _ _ h'.found)

/-- A match is the longest if it is as long as any match of its own rule. -/
theorem LongestMatch.of_rule {r : Rule} (h : r.MatchesAt source i w)
    (hl : ∀ w', r.MatchesAt source i w' → w'.length ≤ w.length) : LongestMatch source i r w :=
  ⟨h, fun _ w' h' => hl w' (h.rule_eq h' ▸ h')⟩

/-! ## Matches of the rules that skip -/

theorem Rule.Matches.ne_lineEnd (h : Rule.Matches .comment w) :
    ∀ c ∈ w, decide (c ≠ '\n') = true := by
  cases h with
  | comment hn =>
    rintro c hc
    refine decide_eq_true ?_
    rintro rfl
    simp [hn] at hc

theorem matches_comment (hc : source[i]? = some '#') :
    Rule.Matches .comment ((source.drop i).takeWhile (· ≠ '\n')) := by
  rw [Text.drop_eq_cons hc, List.takeWhile_cons_of_pos (by decide)]
  refine .comment fun hmem => ?_
  exact absurd (List.all_eq_true.mp List.all_takeWhile _ hmem) (by decide)

/-- Where a rule that skips matches anything, a piece of a gap stands. -/
theorem Rule.MatchesAt.exists_gapPiece {r : Rule} (h : r.MatchesAt source i w)
    (hs : r.isSkipped = true) : ∃ j, GapPiece source i j := by
  obtain ⟨c, t, hw, hc, -⟩ := h.eq_ofFirst
  have hm := h.matched
  cases hm with
  | lineEnd =>
    obtain rfl := (List.cons.inj hw).1
    exact ⟨_, .lineEnd hc⟩
  | blank hb =>
    obtain rfl := (List.cons.inj hw).1
    exact ⟨_, .blank hc hb⟩
  | comment _ =>
    obtain rfl := (List.cons.inj hw).1
    have hi := (List.getElem?_eq_some_iff.mp hc).1
    have hrun := Text.longestRun_takeWhile ne_lineEnd_iff (Nat.le_of_lt hi)
    exact ⟨_, .comment hc (h.column rfl) hrun⟩
  | word _ _ => simp [Rule.isSkipped] at hs
  | string _ => simp [Rule.isSkipped] at hs
  | mark _ => simp [Rule.isSkipped] at hs

theorem singleton_prefix_drop (hc : source[i]? = some c) : [c] <+: source.drop i :=
  ⟨_, (Text.drop_eq_cons hc).symm⟩

/-- Each piece of a gap is the longest match of a rule that skips. -/
theorem exists_longestMatch_of_gapPiece {j : Nat} (h : GapPiece source i j) :
    ∃ r w, LongestMatch source i r w ∧ r.isSkipped = true ∧ j = i + w.length := by
  cases h with
  | lineEnd hc =>
    refine ⟨.lineEnd, ['\n'], .of_rule ⟨by simp, .lineEnd, singleton_prefix_drop hc⟩
      fun w' h' => ?_, rfl, rfl⟩
    cases h'.matched
    exact Nat.le_refl _
  | blank hc hb =>
    refine ⟨.blank, _, .of_rule ⟨by simp, .blank hb, singleton_prefix_drop hc⟩
      fun w' h' => ?_, rfl, rfl⟩
    cases h'.matched
    exact Nat.le_refl _
  | comment hc hl hr =>
    have hj := (Text.longestRun_iff ne_lineEnd_iff (Nat.le_trans hr.le hr.le_length)).mp hr
    exact ⟨.comment, _, .of_rule ⟨fun _ => hl, matches_comment hc, List.takeWhile_prefix _⟩
      fun w' h' => Text.length_le_takeWhile h'.stands h'.matched.ne_lineEnd, rfl, hj⟩

/-- What a rule that skips matches at longest is a piece of a gap. -/
theorem LongestMatch.gapPiece {r : Rule} (h : LongestMatch source i r w)
    (hs : r.isSkipped = true) : GapPiece source i (i + w.length) := by
  obtain ⟨j, hp⟩ := h.found.exists_gapPiece hs
  obtain ⟨r', w', h', -, rfl⟩ := exists_longestMatch_of_gapPiece hp
  rwa [(h.unique h').2]

end MiniLex.Bootstrap
