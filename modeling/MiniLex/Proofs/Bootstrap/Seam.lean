import MiniLex.Proofs.Bootstrap.Truncation

/-!
# Bootstrap text on either side of a line end

What is found in a text that is put together with a line end between its parts:

* behind a line end the same is found as in the rest of the text alone, as a
  comment may begin there too (`Finds.of_drop`, `Passes.of_drop`);
* before a line end the same tokens are found as in the first part alone. Only a
  string can go on over a line end, but one that could be longer is refused in
  the first part too (`finds_illegal_of_apostrophe`), so `Finds.of_take` and
  `Passes.of_take` need no more than that nothing is refused there;
* where the first part ends, the line end is skipped (`Finds.of_end`).

`Yields.join` puts these facts together for all tokens of both parts.
-/

namespace MiniLex.Bootstrap

variable {source w : Text} {r : Rule} {f : Finding} {c : Char} {i j k n : Nat}
  {kind : TokenKind} {value : Option Text} {start stop : Nat} {tokens : List Token}

/-! ## Behind a line end -/

/-- What is found in a text that has so many characters more before it. -/
def Finding.shift (k : Nat) : Finding → Finding
  | token kind value start stop => token kind value (k + start) (k + stop)
  | illegal c i => illegal c (k + i)

theorem lineStart_drop_iff (hk : LineStart source k) :
    LineStart (source.drop k) i ↔ LineStart source (k + i) := by
  rcases Nat.eq_zero_or_pos i with rfl | hi
  · exact iff_of_true (.inl rfl) hk
  · have hne : k + i ≠ 0 := by omega
    have hpred : k + (i - 1) = k + i - 1 := by omega
    rw [LineStart, LineStart, List.getElem?_drop, hpred]
    exact or_congr (iff_of_false (Nat.ne_of_gt hi) hne) Iff.rfl

theorem Rule.matchesAt_drop_iff (hk : LineStart source k) :
    r.MatchesAt (source.drop k) i w ↔ r.MatchesAt source (k + i) w := by
  constructor
  · intro h
    refine ⟨fun hr => (lineStart_drop_iff hk).mp (h.column hr), h.matched, ?_⟩
    rw [← List.drop_drop]
    exact h.stands
  · intro h
    refine ⟨fun hr => (lineStart_drop_iff hk).mpr (h.column hr), h.matched, ?_⟩
    rw [List.drop_drop]
    exact h.stands

theorem LongestMatch.of_drop (hk : LineStart source k) (h : LongestMatch (source.drop k) i r w) :
    LongestMatch source (k + i) r w :=
  ⟨(Rule.matchesAt_drop_iff hk).mp h.found,
    fun _ _ h' => h.longest _ _ ((Rule.matchesAt_drop_iff hk).mpr h')⟩

/-- Behind a line end the same is found as in the rest of the text alone. -/
theorem Finds.of_drop (hk : LineStart source k) (hle : k ≤ source.length)
    (h : Finds (source.drop k) i f) : Finds source (k + i) (f.shift k) := by
  induction h with
  | atEnd =>
    have hlength : k + (source.drop k).length = source.length := by
      rw [List.length_drop]
      omega
    rw [Finding.shift, hlength]
    exact .atEnd
  | skip hl hs _ ih =>
    rw [← Nat.add_assoc] at ih
    exact .skip (hl.of_drop hk) hs ih
  | token hl hs hg =>
    rw [Finding.shift, ← Nat.add_assoc]
    exact .token (hl.of_drop hk) hs hg
  | illegal hc hnone =>
    rw [List.getElem?_drop] at hc
    exact .illegal hc fun r w hm => hnone r w ((Rule.matchesAt_drop_iff hk).mpr hm)

theorem tokenOf_drop (source : Text) (k : Nat) (kind : TokenKind) (value : Option Text)
    (start stop : Nat) :
    (tokenOf (source.drop k) kind value start stop).shift k (Text.lineEnds (source.take k)) =
      tokenOf source kind value (k + start) (k + stop) := by
  have hline : Text.lineEnds (source.take k) +
      (1 + Text.lineEnds ((source.drop k).take start)) =
        1 + Text.lineEnds (source.take (k + start)) := by
    rw [List.take_add, Text.lineEnds_append]
    omega
  simp only [tokenOf, Token.shift, Option.map_some, hline]

/-- Behind a line end the same tokens are passed, further on by what stands before it. -/
theorem Passes.of_drop (hk : LineStart source k) (hle : k ≤ source.length)
    (h : Passes (source.drop k) i tokens j) :
    Passes source (k + i) (tokens.map (Token.shift k (Text.lineEnds (source.take k)))) (k + j) := by
  induction h with
  | nil i => exact .nil _
  | cons hf hkind _ ih =>
    rw [List.map_cons, tokenOf_drop]
    exact .cons (hf.of_drop hk hle) hkind ih

/-! ## Before a line end -/

/-- Only a string goes on over a line end. -/
theorem Rule.Matches.eq_lineEnd_of_mem (h : r.Matches w) (hw : '\n' ∈ w) (hr : r ≠ .string) :
    w = ['\n'] := by
  cases h with
  | lineEnd => rfl
  | blank hc =>
    obtain rfl := List.mem_singleton.mp hw
    exact absurd hc (by decide)
  | comment hn => exact absurd ((List.mem_cons.mp hw).resolve_left (by decide)) hn
  | word _ hall => exact absurd (isWordChar_iff.mpr (hall _ hw)) (by decide)
  | string _ => exact absurd rfl hr
  | mark hc =>
    obtain rfl := List.mem_singleton.mp hw
    exact absurd hc (by decide)

theorem Rule.MatchesAt.length_pos (h : r.MatchesAt source i w) : 0 < w.length := by
  obtain ⟨c, t, rfl, -⟩ := h.eq_ofFirst
  exact Nat.zero_lt_succ _

/-- A match reaches no further than the text. -/
theorem Rule.MatchesAt.add_length_le (h : r.MatchesAt source i w) :
    i + w.length ≤ source.length := by
  obtain ⟨v, hv⟩ := h.stands
  exact Text.length_of_drop_eq_append hv.symm (List.length_pos_iff.mp h.length_pos)

/-- A match that goes on over an offset holds the character there. -/
theorem Rule.MatchesAt.mem_of_lt (h : r.MatchesAt source i w) (hi : i ≤ n)
    (hn : n < i + w.length) (hc : source[n]? = some c) : c ∈ w := by
  obtain ⟨m, rfl⟩ := Nat.exists_eq_add_of_le hi
  have hm : m < w.length := by omega
  obtain ⟨v, hv⟩ := h.stands
  rw [← List.getElem?_drop, ← hv, List.getElem?_append_left hm] at hc
  exact List.mem_of_getElem? hc

/-- Of two strings at one offset the shorter one ends where an apostrophe follows. -/
theorem Rule.MatchesAt.apostrophe_of_lt {w' : Text} (h : Rule.MatchesAt .string source i w)
    (h' : Rule.MatchesAt .string source i w') (hlt : w.length < w'.length) :
    source[i + w.length]? = some apostrophe := by
  obtain ⟨v, hv⟩ := h.stands
  obtain ⟨v', hv'⟩ := h'.stands
  have hm := h.matched
  have hm' := h'.matched
  cases hm with
  | @string inside value hdec =>
    cases hm' with
    | @string inside' value' hdec' =>
      have hu : inside ++ [apostrophe] <+: source.drop (i + 1) :=
        ⟨v, by rw [← List.drop_drop, ← hv]; rfl⟩
      have hu' : inside' ++ [apostrophe] <+: source.drop (i + 1) :=
        ⟨v', by rw [← List.drop_drop, ← hv']; rfl⟩
      simp only [List.length_cons, List.length_append, List.length_nil] at hlt
      have hnext := hdec.getElem?_of_lt hdec' hu hu' (by omega)
      rw [List.getElem?_drop] at hnext
      rw [← hnext]
      congr 1
      simp only [List.length_cons, List.length_append, List.length_nil]
      omega

/-- Where an apostrophe follows the longest string, no rule matches anything: the string would be
longer with what is matched there. -/
theorem finds_illegal_of_apostrophe (h : LongestMatch source i .string w)
    (hc : source[i + w.length]? = some apostrophe) :
    Finds source (i + w.length) (.illegal apostrophe (i + w.length)) := by
  refine .illegal hc fun r w' hm => ?_
  obtain ⟨d, t, -, hd, hr⟩ := hm.eq_ofFirst
  obtain rfl := Option.some.inj (hc.symm.trans hd)
  rw [show Rule.ofFirst apostrophe = .string by decide] at hr
  subst hr
  obtain ⟨v, hv⟩ := h.found.stands
  obtain ⟨v', hv'⟩ := hm.stands
  have hdrop := Text.drop_add_of_drop_eq_append hv.symm
  have hfound := h.found.matched
  have hmatched := hm.matched
  -- With the apostrophes at which they meet as a pair, both are the inside of one string.
  have hboth : Rule.Matches .string (w ++ w') := by
    cases hfound with
    | string hdec =>
      cases hmatched with
      | string hdec' =>
        have hlong := Rule.Matches.string (hdec.append hdec')
        simpa only [List.cons_append, List.append_assoc, List.nil_append] using hlong
  have hle := h.longest .string (w ++ w') ⟨by simp, hboth, v', by
    rw [← hv, List.append_assoc, hv', hdrop]⟩
  rw [List.length_append] at hle
  exact List.length_eq_zero_iff.mp (by omega)

/-- A longest match stays one in a text that goes on with a line end, unless it is a string that an
apostrophe follows. -/
theorem LongestMatch.of_take (hline : source[n]? = some '\n')
    (h : LongestMatch (source.take n) i r w)
    (hr : r = .string → source[i + w.length]? ≠ some apostrophe) : LongestMatch source i r w := by
  have hwhole := h.found.of_take
  have hn : i + w.length ≤ n :=
    Nat.le_trans h.found.add_length_le (List.length_take_le _ _)
  refine .of_rule hwhole fun w' hm => ?_
  by_cases hle : i + w'.length ≤ n
  · exact h.longest _ _ (hm.take hle)
  by_cases hs : r = .string
  · subst hs
    refine Nat.le_of_not_lt fun hlt => ?_
    exact hr rfl (hwhole.apostrophe_of_lt hm hlt)
  · have hw := hm.matched.eq_lineEnd_of_mem
      (hm.mem_of_lt (Nat.le_trans (Nat.le_add_right _ _) hn) (by omega) hline) hs
    rw [hw]
    exact hwhole.length_pos

/-- A token that is found before a line end is found in the whole text too, if nothing is refused
right behind it in the part before the line end. -/
theorem Finds.of_take (hline : source[n]? = some '\n')
    (h : Finds (source.take n) i (.token kind value start stop)) (hk : kind.isEnd = false)
    (hnext : ∀ c, ¬Finds (source.take n) stop (.illegal c stop)) :
    Finds source i (.token kind value start stop) := by
  generalize hf : Finding.token kind value start stop = f at h
  induction h with
  | atEnd =>
    obtain ⟨rfl, -⟩ := Finding.token.inj hf
    cases hk
  | skip hl hs _ ih =>
    refine .skip (hl.of_take hline ?_) hs (ih hf)
    rintro rfl
    cases hs
  | @token _ r w _ _ hl hs hg =>
    obtain ⟨rfl, rfl, rfl, rfl⟩ := Finding.token.inj hf
    refine .token (hl.of_take hline ?_) hs hg
    rintro rfl hc
    have hle : start + w.length ≤ n :=
      Nat.le_trans hl.found.add_length_le (List.length_take_le _ _)
    have hne : start + w.length ≠ n := by
      intro he
      rw [he, hline] at hc
      cases hc
    refine hnext _ (finds_illegal_of_apostrophe hl ?_)
    rwa [List.getElem?_take_of_lt (by omega)]
  | illegal _ _ => cases hf

/-- The end token is found at the end of the text only. -/
theorem Finds.eq_end (h : Finds source i (.token kind value start stop)) (hk : kind.isEnd = true) :
    Finding.token kind value start stop =
      .token (.bootstrap .endOfInput) none source.length source.length := by
  generalize hg : Finding.token kind value start stop = g at h
  induction h with
  | atEnd => rfl
  | skip _ _ _ ih => exact ih hg
  | token _ _ hgives =>
    obtain ⟨rfl, -⟩ := Finding.token.inj hg
    exact absurd (beq_iff_eq.mp hk) hgives.ne_endOfInput
  | illegal _ _ => cases hg

/-- Where the part before a line end ends, what is found behind the line end is found. -/
theorem Finds.of_end (hline : source[n]? = some '\n')
    (h : Finds (source.take n) i (.token kind value start stop)) (hk : kind.isEnd = true)
    (hnext : Finds source (n + 1) f) : Finds source i f := by
  generalize hg : Finding.token kind value start stop = g at h
  induction h with
  | atEnd =>
    have hlt := (List.getElem?_eq_some_iff.mp hline).1
    rw [List.length_take_of_le (Nat.le_of_lt hlt)]
    obtain ⟨r, w, hl, hs, hw⟩ := exists_longestMatch_of_gapPiece (.lineEnd hline)
    exact .skip hl hs (hw ▸ hnext)
  | skip hl hs _ ih =>
    refine .skip (hl.of_take hline ?_) hs (ih hg)
    rintro rfl
    cases hs
  | token _ _ hgives =>
    obtain ⟨rfl, -⟩ := Finding.token.inj hg
    exact absurd (beq_iff_eq.mp hk) hgives.ne_endOfInput
  | illegal _ _ => cases hg

/-! ## All that is found -/

/-- From an offset on the rules give these tokens one after the other, and then this. -/
def Yields (source : Text) (i : Nat) (tokens : List Token) (f : Finding) : Prop :=
  ∃ j, Passes source i tokens j ∧ Finds source j f

/-- Where tokens are passed and then the end is found, the first that is found is a token. -/
theorem Yields.exists_token (h : Yields source i tokens (.token kind value start stop)) :
    ∃ kind value start stop, Finds source i (.token kind value start stop) := by
  obtain ⟨j, hpass, hf⟩ := h
  cases hpass with
  | nil => exact ⟨_, _, _, _, hf⟩
  | cons hf' _ _ => exact ⟨_, _, _, _, hf'⟩

/-- Where the same is found first, the same tokens are given. -/
theorem Yields.of_finds (himp : ∀ g, Finds source j g → Finds source i g)
    (h : Yields source j tokens f) : Yields source i tokens f := by
  obtain ⟨l, hpass, hf⟩ := h
  cases hpass with
  | nil => exact ⟨_, .nil _, himp _ hf⟩
  | cons hf' hk hrest => exact ⟨_, .cons (himp _ hf') hk hrest, hf⟩

theorem Yields.cons (hf : Finds source i (.token kind value start stop)) (hk : kind.isEnd = false)
    (h : Yields source stop tokens f) :
    Yields source i (tokenOf source kind value start stop :: tokens) f := by
  obtain ⟨j, hpass, hj⟩ := h
  exact ⟨j, .cons hf hk hpass, hj⟩

/-- Tokens are passed before a line end as they are in the first part alone, if that ends behind
them, and what is given behind the line end follows them. -/
theorem Passes.of_take {rest : List Token} (hline : source[n]? = some '\n')
    (h : Passes (source.take n) i tokens j)
    (hend : Finds (source.take n) j (.token kind value start stop)) (hk : kind.isEnd = true)
    (hrest : Yields source (n + 1) rest f) : Yields source i (tokens ++ rest) f := by
  induction h with
  | nil i => exact hrest.of_finds fun _ hg => hend.of_end hline hk hg
  | @cons i j kind' value' start' stop' tokens hf hkind hpass ih =>
    obtain ⟨hgap, hin⟩ := hf.gap_of_token none
    have hstop : stop' ≤ n := Nat.le_trans hin.stop_le (List.length_take_le _ _)
    rw [tokenOf_take (Nat.le_trans hin.start_le hstop), List.cons_append]
    refine .cons (hf.of_take hline hkind fun c hill => ?_) hkind (ih hend)
    obtain ⟨_, _, _, _, htok⟩ := Yields.exists_token ⟨j, hpass, hend⟩
    cases hill.eq_finding.trans htok.eq_finding.symm

/-- A text gives the tokens of the part before a line end, if that is found to its end, and then all
that the part behind the line end gives, further on by what stands before it. -/
theorem Yields.join {rest : List Token} (hline : source[n]? = some '\n')
    (h : Yields (source.take n) 0 tokens (.token kind value start stop)) (hk : kind.isEnd = true)
    (h' : Yields (source.drop (n + 1)) 0 rest f) :
    Yields source 0
      (tokens ++ rest.map (Token.shift (n + 1) (Text.lineEnds (source.take (n + 1)))))
      (f.shift (n + 1)) := by
  obtain ⟨j, hpass, hend⟩ := h
  obtain ⟨j', hpass', hf'⟩ := h'
  have hstart : LineStart source (n + 1) := .inr hline
  have hle : n + 1 ≤ source.length := (List.getElem?_eq_some_iff.mp hline).1
  exact hpass.of_take hline hend hk ⟨_, hpass'.of_drop hstart hle, hf'.of_drop hstart hle⟩

end MiniLex.Bootstrap
