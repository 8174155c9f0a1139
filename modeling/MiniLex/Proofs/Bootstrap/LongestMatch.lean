import MiniLex.Proofs.Bootstrap.Grammar
import MiniLex.Proofs.Text.Division

/-!
# Bootstrap text is read by the longest match

`Reading.read` cuts lexemes out of a text by hand: words by their class of
characters, strings by looking for the apostrophe that closes them, and where
none does for the last one that could. Here it is shown to find the longest
match of the rules of the language:

* `longestMatch_of_lexeme`, `not_matchesAt_of_illegal`: a lexeme is a longest
  match, and where a character is refused there is none;
* `Rule.Gives.unique`: a match makes one token only;
* `finds_iff`: what is found from an offset on, as a function (`finding`).
-/

namespace MiniLex.Bootstrap

variable {source : Text} {i : Nat} {c : Char}

/-! ## Lexemes are longest matches -/

/-- The kind and the payload of a word are those of the token that its rule gives. -/
theorem gives_word (w : Text) :
    ∃ kind, (wordLexeme w).kind = .bootstrap kind ∧
      Rule.Gives .word w kind (wordLexeme w).payload.value := by
  refine ⟨_, rfl, ?_⟩
  simp only [wordLexeme, Kind.ofWord]
  by_cases hn : w = Kind.nullLiteral
  · subst hn
    exact .nullLiteral
  · rw [if_neg hn]
    cases hk : Keyword.ofSpelling? w with
    | some k =>
      obtain rfl := Keyword.ofSpelling?_eq_some_iff.mp hk
      exact .keyword k
    | none =>
      refine .ident (fun k he => ?_) hn
      rw [Keyword.ofSpelling?_eq_some_iff.mpr he] at hk
      exact absurd hk (by simp)

theorem longestMatch_word (hc : source[i]? = some c) (hw : isWordChar c = true) :
    LongestMatch source i .word ((source.drop i).takeWhile isWordChar) := by
  refine .of_rule ⟨by simp, .word ?_ fun d hd => ?_, List.takeWhile_prefix _⟩ fun w' h' => ?_
  · rw [Text.drop_eq_cons hc, List.takeWhile_cons_of_pos hw]
    simp
  · exact isWordChar_iff.mp (List.all_eq_true.mp List.all_takeWhile d hd)
  · have hm := h'.matched
    cases hm with
    | word _ hall =>
      have htest : ∀ d ∈ w', isWordChar d = true := fun d hd => isWordChar_iff.mpr (hall d hd)
      exact Text.length_le_takeWhile h'.stands htest

theorem longestMatch_string {rest : Text} {b : Doubled.Body}
    (hd : source.drop i = apostrophe :: rest)
    (hb : (Doubled.Body.read apostrophe rest).longest? = some b) :
    ∃ w, LongestMatch source i .string w ∧
      Rule.Gives .string w .ident (some (b.text apostrophe)) ∧ w.length = b.width + 1 := by
  obtain ⟨inside, rest', hr, hdec, hwidth⟩ := Doubled.Body.exists_decodes_of_longest? hb
  refine ⟨apostrophe :: (inside ++ [apostrophe]), .of_rule ⟨by simp, .string hdec, rest', ?_⟩
    fun w' h' => ?_, .string hdec, by simp [hwidth]⟩
  · rw [hd, hr]
    simp
  · have hm := h'.matched
    cases hm with
    | string hdec' =>
      rename_i inside' value'
      obtain ⟨v, hv⟩ := h'.stands
      rw [hd, List.cons_append, List.cons.injEq, List.append_assoc] at hv
      obtain ⟨b', hb', hle⟩ := Doubled.Body.le_width_of_decodes hdec' v
      rw [List.singleton_append] at hv
      rw [hv.2, hb, Option.some.injEq] at hb'
      subst hb'
      simp only [List.length_cons, List.length_append, List.length_nil]
      omega

theorem gives_mark {kind : Kind} (h : Kind.ofMark? c = some kind) :
    Rule.Gives .mark [c] kind none ∧ c ∈ [',', '=', '(', ')'] := by
  simp only [Kind.ofMark?] at h
  split at h
  · subst_vars; cases h; exact ⟨.comma, by decide⟩
  split at h
  · subst_vars; cases h; exact ⟨.equals, by decide⟩
  split at h
  · subst_vars; cases h; exact ⟨.leftParen, by decide⟩
  split at h
  · subst_vars; cases h; exact ⟨.rightParen, by decide⟩
  · cases h

theorem longestMatch_mark (hc : source[i]? = some c) (hm : c ∈ [',', '=', '(', ')']) :
    LongestMatch source i .mark [c] := by
  refine .of_rule ⟨by simp, .mark hm, singleton_prefix_drop hc⟩ fun w' h' => ?_
  have hm' := h'.matched
  cases hm'
  exact Nat.le_refl _

/-- A lexeme is the longest match at its offset. -/
theorem longestMatch_of_lexeme {l : Lexeme} (h : Reading.read (source.drop i) = .lexeme l) :
    ∃ r w kind, LongestMatch source i r w ∧ r.isSkipped = false ∧ l.kind = .bootstrap kind ∧
      r.Gives w kind l.payload.value ∧ l.width = w.length := by
  cases hd : source.drop i with
  | nil => simp [hd, Reading.read] at h
  | cons c rest =>
    have hc := Text.getElem?_of_drop_eq_cons hd
    rw [hd, Reading.read] at h
    split at h
    · rename_i hw
      obtain rfl := Reading.lexeme.inj h
      have hrun := longestMatch_word hc hw
      rw [hd, List.takeWhile_cons_of_pos hw] at hrun
      obtain ⟨kind, hk, hg⟩ := gives_word (c :: rest.takeWhile isWordChar)
      exact ⟨_, _, kind, hrun, rfl, hk, hg, rfl⟩
    split at h
    · rename_i hq
      subst hq
      split at h
      · rename_i b hb
        obtain rfl := Reading.lexeme.inj h
        obtain ⟨w, hlong, hg, hlen⟩ := longestMatch_string hd hb
        exact ⟨_, w, _, hlong, rfl, rfl, hg, hlen.symm⟩
      · cases h
    split at h
    · rename_i kind hk
      obtain rfl := Reading.lexeme.inj h
      obtain ⟨hg, hm⟩ := gives_mark hk
      exact ⟨_, _, kind, longestMatch_mark hc hm, rfl, rfl, hg, rfl⟩
    · cases h

theorem ofMark?_isSome (h : c ∈ [',', '=', '(', ')']) : ∃ kind, Kind.ofMark? c = some kind := by
  simp only [List.mem_cons, List.not_mem_nil, or_false] at h
  rcases h with rfl | rfl | rfl | rfl <;> exact ⟨_, rfl⟩

/-- Where a rule that does not skip matches anything, a lexeme stands. -/
theorem Rule.MatchesAt.exists_lexeme {r : Rule} {w : Text} (h : r.MatchesAt source i w)
    (hs : r.isSkipped = false) : ∃ l, Reading.read (source.drop i) = .lexeme l := by
  obtain ⟨v, hv⟩ := h.stands
  rw [← hv]
  have hm := h.matched
  cases hm with
  | word hne hall =>
    obtain ⟨c, t, rfl⟩ := List.exists_cons_of_ne_nil hne
    have hc := isWordChar_iff.mpr (hall c List.mem_cons_self)
    exact ⟨_, by rw [List.cons_append, Reading.read, if_pos hc]⟩
  | string hdec =>
    rename_i inside value
    obtain ⟨b, hb, -⟩ := Doubled.Body.le_width_of_decodes hdec v
    refine ⟨stringLexeme b, ?_⟩
    rw [List.cons_append, List.append_assoc, List.singleton_append, Reading.read,
      if_neg (by decide), if_pos rfl, hb]
  | mark hc =>
    obtain ⟨kind, hk⟩ := ofMark?_isSome hc
    refine ⟨⟨.bootstrap kind, .absent, 1⟩, ?_⟩
    rename_i c
    have hw : isWordChar c = false := by
      simp only [List.mem_cons, List.not_mem_nil, or_false] at hc
      rcases hc with rfl | rfl | rfl | rfl <;> decide
    have hq : c ≠ apostrophe := by
      rintro rfl
      exact absurd hc (by decide)
    simp [Reading.read, hw, hq, hk]
  | lineEnd => simp [Rule.isSkipped] at hs
  | blank _ => simp [Rule.isSkipped] at hs
  | comment _ => simp [Rule.isSkipped] at hs

/-- Where a character is refused that begins no piece of a gap, no rule matches anything. -/
theorem not_matchesAt_of_illegal (h : Reading.read (source.drop i) = .illegal c)
    (hp : ∀ j, ¬GapPiece source i j) (r : Rule) (w : Text) : ¬r.MatchesAt source i w := by
  intro hm
  cases hs : r.isSkipped with
  | true =>
    obtain ⟨j, hj⟩ := hm.exists_gapPiece hs
    exact hp j hj
  | false =>
    obtain ⟨l, hl⟩ := hm.exists_lexeme hs
    rw [h] at hl
    cases hl

theorem getElem?_of_illegal (h : Reading.read (source.drop i) = .illegal c) :
    source[i]? = some c := by
  cases hd : source.drop i with
  | nil => simp [hd, Reading.read] at h
  | cons d rest =>
    rw [hd, Reading.read] at h
    have hc : d = c := by
      split at h
      · cases h
      split at h
      · split at h <;> cases h
        rfl
      · split at h <;> cases h
        rfl
    exact Text.getElem?_of_drop_eq_cons (hc ▸ hd)

theorem eq_length_of_atEnd (hi : i ≤ source.length)
    (h : Reading.read (source.drop i) = .atEnd) : i = source.length := by
  cases hd : source.drop i with
  | nil => exact Nat.le_antisymm hi (List.drop_eq_nil_iff.mp hd)
  | cons d rest =>
    rw [hd, Reading.read] at h
    split at h
    · cases h
    split at h
    · split at h <;> cases h
    · split at h <;> cases h

/-! ## The token of a match is unique -/

theorem ofWord_spelling (k : Keyword) : Kind.ofWord k.spelling = .keyword k := by
  rw [Kind.ofWord, Keyword.ofSpelling?_spelling]
  cases k <;> decide

theorem Rule.Gives.of_word {w : Text} {kind : Kind} {value : Option Text}
    (h : Rule.Gives .word w kind value) :
    kind = Kind.ofWord w ∧ value = (wordPayload w (Kind.ofWord w)).value := by
  cases h with
  | keyword k => rw [ofWord_spelling]; exact ⟨rfl, rfl⟩
  | nullLiteral => exact ⟨rfl, rfl⟩
  | ident hk hn =>
    have hw : Kind.ofWord w = .ident := by
      rw [Kind.ofWord, if_neg hn]
      cases hs : Keyword.ofSpelling? w with
      | none => rfl
      | some k => exact absurd (Keyword.ofSpelling?_eq_some_iff.mp hs) (hk k)
    rw [hw]
    exact ⟨rfl, rfl⟩

theorem Rule.Gives.of_string {w : Text} {kind : Kind} {value : Option Text}
    (h : Rule.Gives .string w kind value) :
    ∃ inside t, w = apostrophe :: (inside ++ [apostrophe]) ∧ Doubled.Decodes apostrophe inside t ∧
      kind = .ident ∧ value = some t := by
  cases h with
  | string hd => exact ⟨_, _, rfl, hd, rfl, rfl⟩

theorem Rule.Gives.of_mark {w : Text} {kind : Kind} {value : Option Text}
    (h : Rule.Gives .mark w kind value) :
    ∃ c, w = [c] ∧ Kind.ofMark? c = some kind ∧ value = none := by
  cases h <;> exact ⟨_, rfl, rfl, rfl⟩

theorem Rule.Gives.unique {r : Rule} {w : Text} {kind kind' : Kind} {value value' : Option Text}
    (h : r.Gives w kind value) (h' : r.Gives w kind' value') : kind = kind' ∧ value = value' := by
  cases r with
  | word =>
    obtain ⟨rfl, rfl⟩ := h.of_word
    obtain ⟨rfl, rfl⟩ := h'.of_word
    exact ⟨rfl, rfl⟩
  | string =>
    obtain ⟨inside, t, rfl, hd, rfl, rfl⟩ := h.of_string
    obtain ⟨inside', t', he, hd', rfl, rfl⟩ := h'.of_string
    obtain rfl := List.append_cancel_right (List.cons.inj he).2
    obtain ⟨-, rfl, -⟩ := Doubled.Body.read_of_decodes hd
    obtain ⟨-, rfl, -⟩ := Doubled.Body.read_of_decodes hd'
    exact ⟨rfl, rfl⟩
  | mark =>
    obtain ⟨c, rfl, hk, rfl⟩ := h.of_mark
    obtain ⟨c', he, hk', rfl⟩ := h'.of_mark
    obtain rfl := (List.cons.inj he).1
    exact ⟨Option.some.inj (hk.symm.trans hk'), rfl⟩
  | lineEnd => cases h
  | blank => cases h
  | comment => cases h

/-! ## What is found, as a function -/

/-- What reading finds from an offset on. -/
def finding (source : Text) (i : Nat) : Finding :=
  let j := gapEnd source i
  match Reading.read (source.drop j) with
  | .atEnd => .token (.bootstrap .endOfInput) none j j
  | .lexeme l => .token l.kind l.payload.value j (j + l.width)
  | .illegal c => .illegal c j

theorem finds_of_gap {j : Nat} {f : Finding} (hg : Gap source i j) (h : Finds source j f) :
    Finds source i f := by
  induction hg using Relation.ReflTransGen.head_induction_on with
  | refl => exact h
  | head hp _ ih =>
    obtain ⟨r, w, hl, hs, rfl⟩ := exists_longestMatch_of_gapPiece hp
    exact .skip hl hs ih

theorem finds_finding (hi : i ≤ source.length) : Finds source i (finding source i) := by
  refine finds_of_gap (gap_gapEnd source i) ?_
  have hj := gapEnd_le_length hi
  have hp := not_gapPiece_gapEnd source i
  simp only [finding]
  generalize gapEnd source i = j at hj hp
  split
  · rename_i hr
    obtain rfl := eq_length_of_atEnd hj hr
    exact .atEnd
  · rename_i l hr
    obtain ⟨r, w, kind, hl, hs, hk, hg, hw⟩ := longestMatch_of_lexeme hr
    rw [hk, hw]
    exact .token hl hs hg
  · rename_i c hr
    refine .illegal (getElem?_of_illegal hr) fun r w hm => ?_
    exact absurd hm (not_matchesAt_of_illegal hr hp r w)

theorem gapEnd_eq_self (h : ∀ j, ¬GapPiece source i j) : gapEnd source i = i :=
  Classical.byContradiction fun hne => (exists_gapPiece hne).elim h

/-- Nothing else is found than what reading finds. -/
theorem Finds.eq_finding {f : Finding} (h : Finds source i f) : f = finding source i := by
  induction h with
  | atEnd =>
    have hp : ∀ j, ¬GapPiece source source.length j := by
      intro j hj
      have hlt := hj.lt
      omega
    simp only [finding, gapEnd_eq_self hp, List.drop_length, Reading.read]
  | skip hl hs _ ih => rw [ih, finding, finding, gapEnd_of_piece (hl.gapPiece hs)]
  | @token i r w kind value hl hs hg =>
    have hp : ∀ j, ¬GapPiece source i j := by
      intro j hj
      obtain ⟨r', w', hl', hs', -⟩ := exists_longestMatch_of_gapPiece hj
      rw [(hl.unique hl').1, hs'] at hs
      cases hs
    obtain ⟨l, hr⟩ := hl.found.exists_lexeme hs
    obtain ⟨r', w', kind', hl', -, hk, hg', hw⟩ := longestMatch_of_lexeme hr
    obtain ⟨rfl, rfl⟩ := hl.unique hl'
    obtain ⟨rfl, rfl⟩ := hg.unique hg'
    simp only [finding, gapEnd_eq_self hp, hr, hk, hw]
  | @illegal i c hc hn =>
    have hno : ∀ r w, ¬Rule.MatchesAt r source i w := by
      intro r w hm
      obtain ⟨d, t, hw, -⟩ := hm.eq_ofFirst
      rw [hn r w hm] at hw
      cases hw
    have hp : ∀ j, ¬GapPiece source i j := by
      intro j hj
      obtain ⟨r, w, hl, -⟩ := exists_longestMatch_of_gapPiece hj
      exact hno r w hl.found
    simp only [finding, gapEnd_eq_self hp]
    split
    · rename_i hr
      have hi := (List.getElem?_eq_some_iff.mp hc).1
      exact absurd (eq_length_of_atEnd (Nat.le_of_lt hi) hr) (Nat.ne_of_lt hi)
    · rename_i l hr
      obtain ⟨r, w, -, hl, -⟩ := longestMatch_of_lexeme hr
      exact absurd hl.found (hno r w)
    · rename_i d hr
      rw [Option.some.inj (hc.symm.trans (getElem?_of_illegal hr))]

theorem finds_iff {f : Finding} (hi : i ≤ source.length) :
    Finds source i f ↔ f = finding source i :=
  ⟨Finds.eq_finding, fun he => he ▸ finds_finding hi⟩

/-! ## Where things are found -/

theorem Rule.Gives.ne_endOfInput {r : Rule} {w : Text} {kind : Kind} {value : Option Text}
    (h : r.Gives w kind value) : kind ≠ .endOfInput := by
  cases h <;> simp

/-- A token is found behind a gap. -/
theorem Finds.gap_of_token {kind : TokenKind} {value : Option Text} {start stop : Nat}
    (h : Finds source i (.token kind value start stop)) (line : Option Nat) :
    Gap source i start ∧ (⟨kind, value, start, stop, line⟩ : Token).StandsIn source := by
  generalize hf : Finding.token kind value start stop = f at h
  induction h with
  | atEnd =>
    obtain ⟨rfl, rfl, rfl, rfl⟩ := Finding.token.inj hf
    exact ⟨.refl, Nat.le_refl _, Nat.le_refl _, by simp [TokenKind.isEnd], fun _ => rfl⟩
  | skip hl hs _ ih =>
    obtain ⟨hg, hin⟩ := ih hf
    exact ⟨.head (hl.gapPiece hs) hg, hin⟩
  | @token i r w kind value hl _ hg =>
    obtain ⟨rfl, rfl, rfl, rfl⟩ := Finding.token.inj hf
    obtain ⟨c, t, rfl, hc, -⟩ := hl.found.eq_ofFirst
    obtain ⟨v, hv⟩ := hl.found.stands
    have hlen := Text.length_of_drop_eq_append hv.symm (by simp)
    refine ⟨.refl, Nat.le_add_right _ _, hlen, fun _ => by simp, fun hk => ?_⟩
    exact absurd (beq_iff_eq.mp hk) hg.ne_endOfInput
  | illegal _ _ => cases hf

/-- A character that no rule accepts is found behind a gap, inside the text. -/
theorem Finds.gap_of_illegal {j : Nat} (h : Finds source i (.illegal c j)) :
    Gap source i j ∧ source[j]? = some c := by
  generalize hf : Finding.illegal c j = f at h
  induction h with
  | atEnd => cases hf
  | skip hl hs _ ih =>
    obtain ⟨hg, hc⟩ := ih hf
    exact ⟨.head (hl.gapPiece hs) hg, hc⟩
  | token _ _ _ => cases hf
  | illegal hc _ =>
    obtain ⟨rfl, rfl⟩ := Finding.illegal.inj hf
    exact ⟨.refl, hc⟩

/-- A token that is found and begins with an apostrophe is the longest match of the rule for
strings. -/
theorem Finds.longest_string {kind : TokenKind} {value : Option Text} {start stop : Nat}
    (h : Finds source i (.token kind value start stop)) (hc : source[start]? = some apostrophe) :
    LongestMatch source start .string (source.slice start stop) := by
  generalize hf : Finding.token kind value start stop = f at h
  induction h with
  | atEnd =>
    obtain ⟨rfl, rfl, rfl, rfl⟩ := Finding.token.inj hf
    simp at hc
  | skip _ _ _ ih => exact ih hf
  | token hl hs hg =>
    obtain ⟨rfl, rfl, rfl, rfl⟩ := Finding.token.inj hf
    obtain ⟨v, hv⟩ := hl.found.stands
    rw [Text.slice_of_drop_eq_append hv.symm]
    obtain ⟨d, t, -, hd, hr⟩ := hl.found.eq_ofFirst
    rw [hc, Option.some.injEq] at hd
    subst hd
    rw [show Rule.ofFirst apostrophe = .string by decide] at hr
    rwa [hr] at hl
  | illegal _ _ => cases hf

end MiniLex.Bootstrap
