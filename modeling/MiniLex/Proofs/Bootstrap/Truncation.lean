import MiniLex.Proofs.Bootstrap.LongestMatch

/-!
# Bootstrap text that is cut short

What is found in a text depends on nothing behind it. A rule that matches in a
text that is cut short matches in the whole text too, so a longest match stays
one as long as it is not cut itself (`LongestMatch.take`), and from that:

* `Finds.take`: a token is still found where the text is cut behind it;
* `Finds.illegal_take`: so is a character that no rule accepts;
* `Finds.end_take`: where the text is cut right before that character, the end
  is found instead.

`Passes` lists the tokens from one offset up to another; `Passes.take` is the
first of these facts for all of them.
-/

namespace MiniLex.Bootstrap

variable {source w : Text} {r : Rule} {c : Char} {i j n : Nat} {tokens : List Token}

/-! ## Matches in a text that is cut short -/

theorem lineStart_of_take (h : LineStart (source.take n) i) : LineStart source i := by
  refine h.imp_right fun hend => ?_
  rw [List.getElem?_take] at hend
  split at hend
  · exact hend
  · cases hend

theorem LineStart.take (h : LineStart source i) (hn : i ≤ n) : LineStart (source.take n) i := by
  rcases h with rfl | hend
  · exact .inl rfl
  by_cases hi : i = 0
  · exact .inl hi
  · refine .inr ?_
    rwa [List.getElem?_take_of_lt (by omega)]

theorem Rule.MatchesAt.of_take (h : r.MatchesAt (source.take n) i w) :
    r.MatchesAt source i w := by
  refine ⟨fun hr => lineStart_of_take (h.column hr), h.matched, h.stands.trans ?_⟩
  rw [List.drop_take]
  exact List.take_prefix _ _

theorem Rule.MatchesAt.take (h : r.MatchesAt source i w) (hn : i + w.length ≤ n) :
    r.MatchesAt (source.take n) i w := by
  refine ⟨fun hr => (h.column hr).take (by omega), h.matched, ?_⟩
  rw [List.drop_take]
  exact List.prefix_take_iff.mpr ⟨h.stands, by omega⟩

/-- A longest match stays one while the text is cut behind it: nothing longer comes in. -/
theorem LongestMatch.take (h : LongestMatch source i r w) (hn : i + w.length ≤ n) :
    LongestMatch (source.take n) i r w :=
  ⟨h.found.take hn, fun _ _ h' => h.longest _ _ h'.of_take⟩

/-! ## What is found there -/

/-- A token is found still if the text is cut behind it. -/
theorem Finds.take {kind : TokenKind} {value : Option Text} {start stop : Nat}
    (h : Finds source i (.token kind value start stop)) (hn : stop ≤ n) :
    Finds (source.take n) i (.token kind value start stop) := by
  generalize hf : Finding.token kind value start stop = f at h
  induction h with
  | atEnd =>
    obtain ⟨rfl, rfl, rfl, rfl⟩ := Finding.token.inj hf
    rw [List.take_of_length_le hn]
    exact .atEnd
  | skip hl hs hrest ih =>
    subst hf
    obtain ⟨hgap, hin⟩ := hrest.gap_of_token none
    exact .skip (hl.take (Nat.le_trans hgap.le (Nat.le_trans hin.start_le hn))) hs (ih rfl)
  | token hl hs hg =>
    obtain ⟨rfl, rfl, rfl, rfl⟩ := Finding.token.inj hf
    exact .token (hl.take hn) hs hg
  | illegal _ _ => cases hf

/-- A character that no rule accepts is found still if the text is cut behind it. -/
theorem Finds.illegal_take (h : Finds source i (.illegal c j)) (hn : j < n) :
    Finds (source.take n) i (.illegal c j) := by
  generalize hf : Finding.illegal c j = f at h
  induction h with
  | atEnd => cases hf
  | skip hl hs hrest ih =>
    subst hf
    have hle := hrest.gap_of_illegal.1.le
    exact .skip (hl.take (Nat.le_trans hle (Nat.le_of_lt hn))) hs (ih rfl)
  | token _ _ _ => cases hf
  | illegal hc hnone =>
    obtain ⟨rfl, rfl⟩ := Finding.illegal.inj hf
    refine .illegal ?_ fun r w hm => hnone r w hm.of_take
    rwa [List.getElem?_take_of_lt hn]

/-- If the text is cut right before a character that no rule accepts, the end is found there. -/
theorem Finds.end_take (h : Finds source i (.illegal c j)) :
    Finds (source.take j) i (.token (.bootstrap .endOfInput) none j j) := by
  generalize hf : Finding.illegal c j = f at h
  induction h with
  | atEnd => cases hf
  | skip hl hs hrest ih =>
    subst hf
    exact .skip (hl.take hrest.gap_of_illegal.1.le) hs (ih rfl)
  | token _ _ _ => cases hf
  | illegal hc _ =>
    obtain ⟨rfl, rfl⟩ := Finding.illegal.inj hf
    have hlength : (source.take j).length = j :=
      List.length_take_of_le (Nat.le_of_lt (List.getElem?_eq_some_iff.mp hc).1)
    have hend : Finds (source.take j) _ _ := .atEnd
    rwa [hlength] at hend

/-! ## All tokens between two offsets -/

/-- The token of a finding: its line is the one on which it starts. -/
def tokenOf (source : Text) (kind : TokenKind) (value : Option Text) (start stop : Nat) : Token :=
  ⟨kind, value, start, stop, some (1 + Text.lineEnds (source.take start))⟩

/-- A token that begins before the text is cut has the same line. -/
theorem tokenOf_take {kind : TokenKind} {value : Option Text} {start stop : Nat} (h : start ≤ n) :
    tokenOf (source.take n) kind value start stop = tokenOf source kind value start stop := by
  rw [tokenOf, tokenOf, List.take_take, Nat.min_eq_left h]

/-- From one offset on, the rules give these tokens one after the other, and the last of them ends
at another offset. None of them is the end token. -/
inductive Passes (source : Text) : Nat → List Token → Nat → Prop
  | nil (i : Nat) : Passes source i [] i
  | cons {i j : Nat} {kind : TokenKind} {value : Option Text} {start stop : Nat}
    {tokens : List Token} :
    Finds source i (.token kind value start stop) → kind.isEnd = false →
    Passes source stop tokens j →
    Passes source i (tokenOf source kind value start stop :: tokens) j

/-- Every token that is passed takes a character at least. -/
theorem Passes.length_add_le (h : Passes source i tokens j) : tokens.length + i ≤ j := by
  induction h with
  | nil i => simp
  | @cons i j kind value start stop tokens hf hk _ ih =>
    obtain ⟨hgap, hin⟩ := hf.gap_of_token none
    have hle : i ≤ start := hgap.le
    have hlt : start < stop := hin.takes hk
    rw [List.length_cons]
    omega

theorem Passes.le (h : Passes source i tokens j) : i ≤ j :=
  Nat.le_trans (Nat.le_add_left _ _) h.length_add_le

theorem Passes.le_length (h : Passes source i tokens j) (hi : i ≤ source.length) :
    j ≤ source.length := by
  induction h with
  | nil i => exact hi
  | cons hf _ _ ih => exact ih (hf.gap_of_token none).2.stop_le

/-- Tokens are passed still if the text is cut behind them. -/
theorem Passes.take (h : Passes source i tokens j) (hn : j ≤ n) :
    Passes (source.take n) i tokens j := by
  induction h with
  | nil i => exact .nil i
  | @cons i j kind value start stop tokens hf hk hrest ih =>
    have hstop : stop ≤ n := Nat.le_trans hrest.le hn
    have hstart : start ≤ n := Nat.le_trans (hf.gap_of_token none).2.start_le hstop
    rw [← tokenOf_take hstart]
    exact .cons (hf.take hstop) hk (ih hn)

end MiniLex.Bootstrap
