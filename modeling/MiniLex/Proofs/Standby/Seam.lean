import MiniLex.Proofs.Standby.Listing

/-!
# Standby lists on either side of a blank

What the rules give in a list that is put together with a blank between its
parts:

* behind any offset the same as in the rest of the list alone (`Reads.of_drop`,
  `Lists.of_drop`);
* before a blank the same tokens as in the first part alone, if no quoted name
  is open there: words and numbers end at the blank, and a quote that closes a
  name is followed by no other (`Reads.of_take`);
* where the first part ends, the blanks before its end token run on over the
  blank into those of the second part.

`Lists.join` puts these facts together for all tokens of both parts, and
`exists_unclosed_join_iff` says in which of them a quoted name never ends.
-/

namespace MiniLex.Standby

variable {source : Text} {c : Char} {i k n p : Nat} {t : Token} {tokens rest : List Token}

/-! ## Behind an offset -/

/-- Behind an offset the same token is read as in the rest of the list alone. -/
theorem Reads.of_drop (hk : k ≤ source.length) (h : Reads (source.drop k) p t) :
    Reads source (k + p) (t.shift k 0) := by
  have hlength : k + (source.drop k).length = source.length := by
    rw [List.length_drop]
    omega
  cases h with
  | atEnd hp => exact .atEnd (by rw [hp, hlength])
  | any hc hs hr hw =>
    rw [List.getElem?_drop] at hc
    rw [Text.slice_drop] at hw
    exact .any hc hs (hr.of_drop hk) hw
  | first hc hs hr hw =>
    rw [List.getElem?_drop] at hc
    rw [Text.slice_drop] at hw
    exact .first hc hs (hr.of_drop hk) hw
  | name hc hs hr ha hf =>
    rw [List.getElem?_drop] at hc
    rw [Text.slice_drop] at ha hf ⊢
    exact .name hc hs (hr.of_drop hk) ha hf
  | number hc hd hr =>
    rw [List.getElem?_drop] at hc
    rw [Text.slice_drop]
    exact .number hc hd (hr.of_drop hk)
  | star hc =>
    rw [List.getElem?_drop] at hc
    exact .star hc
  | comma hc =>
    rw [List.getElem?_drop] at hc
    exact .comma hc
  | leftParen hc =>
    rw [List.getElem?_drop] at hc
    exact .leftParen hc
  | rightParen hc =>
    rw [List.getElem?_drop] at hc
    exact .rightParen hc
  | quoted hd hdec hr =>
    rw [List.drop_drop] at hd
    have hquoted := Reads.quoted hd hdec hr
    rwa [Nat.add_assoc] at hquoted
  | unclosed hd hdec =>
    rw [List.drop_drop] at hd
    have hunclosed := Reads.unclosed hd hdec
    rwa [← hlength] at hunclosed
  | junk hc hs hd hn =>
    rw [List.getElem?_drop] at hc
    exact .junk hc hs hd hn

/-- Behind an offset the same tokens are given, further on by it. -/
theorem Lists.of_drop (hk : k ≤ source.length) (h : Lists (source.drop k) i tokens) :
    Lists source (k + i) (tokens.map (Token.shift k 0)) := by
  induction h with
  | last hb hr hkind => exact .last (hb.of_drop hk) (hr.of_drop hk) hkind
  | cons hb hr hkind _ ih => exact .cons (hb.of_drop hk) (hr.of_drop hk) hkind ih

theorem unclosed_drop_iff : Unclosed (source.drop k) p ↔ Unclosed source (k + p) := by
  rw [Unclosed, Unclosed, List.drop_drop]

/-! ## Before a blank -/

theorem Blank.not_nameChar (h : Blank c) : ¬NameChar c := by
  rw [← isNameChar_iff]
  simp only [Blank, List.mem_cons, List.not_mem_nil, or_false] at h
  rcases h with rfl | rfl | rfl | rfl | rfl <;> decide

theorem Blank.ne_quote (h : Blank c) : c ≠ '"' := by
  rintro rfl
  exact absurd h (by simp [Blank])

/-- A token that is read before a blank is read in the whole list too, unless it is a quoted name
that does not end before the blank. -/
theorem Reads.of_take (hn : source[n]? = some c) (hc : Blank c) (h : Reads (source.take n) p t)
    (hk : t.kind.isEnd = false) (hu : ¬Unclosed (source.take n) p) : Reads source p t := by
  have hchar : ∀ {d}, (source.take n)[p]? = some d → source[p]? = some d := by
    intro d hd
    rw [List.getElem?_take] at hd
    split at hd
    · exact hd
    · cases hd
  have hrun : ∀ {P : Char → Prop} {stop : Nat}, ¬P c → Text.LongestRun (source.take n) P p stop →
      source.LongestRun P p stop ∧
        Text.slice (source.take n) p stop = source.slice p stop := by
    intro P stop hP hr
    refine ⟨hr.of_take fun _ d hd => ?_, Text.slice_take ?_⟩
    · rwa [← Option.some.inj (hn.symm.trans hd)]
    · exact Nat.le_trans hr.le_length (List.length_take_le _ _)
  have hname : ¬NameChar c := hc.not_nameChar
  have hdigit : ¬Digit c := fun hd => hname (.inr (.inl hd))
  cases h with
  | atEnd _ => cases hk
  | any hc' hs hr hw =>
    obtain ⟨hr', hslice⟩ := hrun hname hr
    exact .any (hchar hc') hs hr' (hslice ▸ hw)
  | first hc' hs hr hw =>
    obtain ⟨hr', hslice⟩ := hrun hname hr
    exact .first (hchar hc') hs hr' (hslice ▸ hw)
  | name hc' hs hr ha hf =>
    obtain ⟨hr', hslice⟩ := hrun hname hr
    rw [hslice] at ha hf ⊢
    exact .name (hchar hc') hs hr' ha hf
  | number hc' hd hr =>
    obtain ⟨hr', hslice⟩ := hrun hdigit hr
    rw [hslice]
    exact .number (hchar hc') hd hr'
  | star hc' => exact .star (hchar hc')
  | comma hc' => exact .comma (hchar hc')
  | leftParen hc' => exact .leftParen (hchar hc')
  | rightParen hc' => exact .rightParen (hchar hc')
  | @quoted inside value rest hd hdec hr =>
    have hp : p < (source.take n).length := Text.lt_length_of_drop_eq_cons hd
    have hdrop : source.drop p = '"' :: (inside ++ '"' :: (rest ++ source.drop n)) := by
      rw [← List.take_append_drop n source, List.drop_append_of_le_length (Nat.le_of_lt hp), hd]
      simp
    refine .quoted hdrop hdec ?_
    cases rest with
    | nil =>
      rw [List.nil_append, List.head?_drop, hn]
      exact fun he => hc.ne_quote (Option.some.inj he)
    | cons d rest => exact hr
  | unclosed hd hdec => exact absurd ⟨_, _, hd, hdec⟩ hu
  | junk hc' hs hd hj => exact .junk (hchar hc') hs hd hj

/-! ## All tokens -/

/-- Where blanks run on into those before the next token, the same tokens are given. -/
theorem Lists.of_blanks (hle : i ≤ k)
    (hblank : ∀ j, i ≤ j → j < k → ∃ c, source[j]? = some c ∧ Blank c)
    (h : Lists source k tokens) : Lists source i tokens := by
  cases h with
  | last hb hr hkind => exact .last (hb.of_all hle hblank) hr hkind
  | cons hb hr hkind hrest => exact .cons (hb.of_all hle hblank) hr hkind hrest

theorem Lists.ne_nil (h : Lists source i tokens) : tokens ≠ [] := by
  cases h <;> simp

/-- Before a blank the tokens of the first part alone are given, if no quoted name is open in it,
and then those behind the blank. -/
theorem Lists.of_take (hn : source[n]? = some c) (hc : Blank c) (h : Lists (source.take n) i tokens)
    (hu : ∀ t ∈ tokens, ¬Unclosed (source.take n) t.start) (hrest : Lists source (n + 1) rest) :
    Lists source i (tokens.dropLast ++ rest) := by
  have hlength : (source.take n).length = n :=
    List.length_take_of_le (Nat.le_of_lt (List.getElem?_eq_some_iff.mp hn).1)
  induction h with
  | @last i t hb hr hk =>
    have hstart : t.start = n := (hr.standsIn.2.atEnd hk).trans hlength
    rw [hstart] at hb
    rw [List.dropLast_singleton, List.nil_append]
    refine hrest.of_blanks (Nat.le_succ_of_le hb.le) fun j hj hj' => ?_
    rcases Nat.lt_succ_iff_lt_or_eq.mp hj' with hlt | rfl
    · obtain ⟨d, hd, hblank⟩ := hb.all j hj hlt
      rw [List.getElem?_take_of_lt hlt] at hd
      exact ⟨d, hd, hblank⟩
    · exact ⟨c, hn, hc⟩
  | @cons i t tokens hb hr hk hlists ih =>
    obtain ⟨hut, hutokens⟩ := List.forall_mem_cons.mp hu
    have hin := hr.standsIn.2
    have hlt : t.start < n := hlength ▸ Nat.lt_of_lt_of_le (hin.takes hk) hin.stop_le
    rw [List.dropLast_cons_of_ne_nil hlists.ne_nil, List.cons_append]
    exact .cons (hb.of_take fun he => absurd he (Nat.ne_of_lt hlt)) (hr.of_take hn hc hk hut) hk
      (ih hutokens)

/-- A list gives the tokens of the part before a blank, if no quoted name is open in it, and then
those of the part behind the blank, further on by what stands before it. -/
theorem Lists.join (hn : source[n]? = some c) (hc : Blank c) (h : Lists (source.take n) 0 tokens)
    (hu : ∀ t ∈ tokens, ¬Unclosed (source.take n) t.start)
    (h' : Lists (source.drop (n + 1)) 0 rest) :
    Lists source 0 (tokens.dropLast ++ rest.map (Token.shift (n + 1) 0)) :=
  h.of_take hn hc hu (h'.of_drop (List.getElem?_eq_some_iff.mp hn).1)

/-! ## Quoted names that never end -/

/-- A quoted name that never ends takes the rest of the list. -/
theorem stop_of_unclosed (h : Reads source p t) (hu : Unclosed source p) :
    t.stop = source.length := by
  obtain ⟨inside, value, hd, hdec⟩ := hu
  rw [h.eq_tokenAt, ← (Reads.unclosed hd hdec).eq_tokenAt]

/-- A quoted name that never ends is in the part behind the blank. -/
theorem exists_unclosed_join_iff (hn : source[n]? = some c) (hc : Blank c)
    (h : Lists (source.take n) 0 tokens) (hu : ∀ t ∈ tokens, ¬Unclosed (source.take n) t.start)
    (h' : Lists (source.drop (n + 1)) 0 rest) :
    (∃ t ∈ tokens.dropLast ++ rest.map (Token.shift (n + 1) 0), Unclosed source t.start) ↔
      ∃ t ∈ rest, Unclosed (source.drop (n + 1)) t.start := by
  have hreads := (h.join hn hc hu h').reads
  constructor
  · intro ⟨t, ht, hopen⟩
    have hstop := stop_of_unclosed (hreads t ht) hopen
    rcases List.mem_append.mp ht with hfirst | hsecond
    · have hin := (h.reads t (List.dropLast_subset _ hfirst)).standsIn.2
      have hle : t.stop ≤ n := Nat.le_trans hin.stop_le (List.length_take_le _ _)
      have hlt := (List.getElem?_eq_some_iff.mp hn).1
      omega
    · obtain ⟨u, hmem, rfl⟩ := List.mem_map.mp hsecond
      exact ⟨u, hmem, unclosed_drop_iff.mpr hopen⟩
  · intro ⟨u, hmem, hopen⟩
    exact ⟨u.shift (n + 1) 0, List.mem_append_right _ (List.mem_map_of_mem hmem),
      unclosed_drop_iff.mp hopen⟩

end MiniLex.Standby
