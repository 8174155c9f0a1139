import MiniLex.Proofs.Bootstrap.CleanPrefix

/-!
# Strings are read back

Enclosing a text in apostrophes is undone by scanning, and it is all that
scanning a string undoes:

* `finds_enclose`: an enclosed text is found as one string token, which takes
  all of it and has the text as its value;
* `enclose_of_finds`: a token that begins with an apostrophe stands in the
  source as its value enclosed. That is so where it never closes too, since what
  is taken of it then is the longest part that does.

`strings_read_back` puts the two together for scans.
-/

namespace MiniLex

namespace Bootstrap

open Doubled (enclose)

variable {source : Text} {i : Nat} {kind : TokenKind} {value : Option Text} {start stop : Nat}

/-! ## Enclosed texts are found as strings -/

theorem lineEnds_enclose (t : Text) : (enclose apostrophe t).lineEnds = t.lineEnds :=
  Doubled.count_enclose_of_ne (by decide) t

/-- An enclosed text is found as a string. Nothing is longer than all of the source. -/
theorem finds_enclose (t : Text) :
    Finds (enclose apostrophe t) 0
      (.token (.bootstrap .ident) (some t) 0 (enclose apostrophe t).length) := by
  have hdec := Doubled.decodes_encode apostrophe t
  have hlong : LongestMatch (enclose apostrophe t) 0 .string (enclose apostrophe t) := by
    refine ⟨⟨by simp, .string hdec, by simp⟩, fun r w h => ?_⟩
    have hle := h.stands.length_le
    rwa [List.drop_zero] at hle
  have hfinds := Finds.token hlong rfl (.string hdec)
  rwa [Nat.zero_add] at hfinds

/-! ## Strings stand as enclosed texts -/

/-- A token that begins with an apostrophe is the string of its value. -/
theorem enclose_of_finds (h : Finds source i (.token kind value start stop))
    (hc : source[start]? = some apostrophe) :
    kind = .bootstrap .ident ∧
      ∃ t, value = some t ∧ enclose apostrophe t = source.slice start stop := by
  generalize hf : Finding.token kind value start stop = f at h
  induction h with
  | atEnd =>
    obtain ⟨rfl, rfl, rfl, rfl⟩ := Finding.token.inj hf
    simp at hc
  | skip _ _ _ ih => exact ih hf
  | token hl _ hg =>
    obtain ⟨rfl, rfl, rfl, rfl⟩ := Finding.token.inj hf
    obtain ⟨v, hv⟩ := hl.found.stands
    obtain ⟨d, _, -, hd, hr⟩ := hl.found.eq_ofFirst
    rw [hc, Option.some.injEq] at hd
    rw [← hd, show Rule.ofFirst apostrophe = .string by decide] at hr
    subst hr
    obtain ⟨inside, t, rfl, hdec, rfl, rfl⟩ := hg.of_string
    refine ⟨rfl, t, rfl, ?_⟩
    rw [Text.slice_of_drop_eq_append hv.symm, hdec.eq_encode, enclose]
  | illegal _ _ => cases hf

/-- What is found stands behind the offset from which it is looked for. -/
theorem le_start_of_finding (h : finding source i = .token kind value start stop) : i ≤ start := by
  simp only [finding] at h
  split at h <;> cases h <;> exact le_gapEnd source i

end Bootstrap

open Bootstrap Doubled

/-- Enclosing a text in apostrophes and scanning undo each other. An enclosed text is tokenized to
one string with this value, and the end token on the line that the text ends on. In every scan, a
token that begins with an apostrophe is a string, and its text is its value enclosed, whether or not
there is an apostrophe that closes it. -/
theorem Scanner.strings_read_back :
    (∀ (e : Ambient) (r : Store.Request) (st : Store) (t : Text),
      st.host.memory.Serves (r.scanner e (some .bootstrap) st.scans.length).allocator →
      r.source = enclose apostrophe t →
      ∃ st', Store.tokenize e .bootstrap r st =
        .ok [⟨.bootstrap .ident, some t, 0, r.source.length, some 1⟩,
          ⟨.bootstrap .endOfInput, none, r.source.length, r.source.length,
            some (1 + t.lineEnds)⟩] st') ∧
    ∀ (s : Scanner) (p : Progress) (h : Host) (token : Token) (m : Machine),
      s.rules = some .bootstrap → s.pull ⟨p, h⟩ = .ok token m →
      s.source[token.start]? = some apostrophe →
      token.kind = .bootstrap .ident ∧
        ∃ t, token.value = some t ∧ enclose apostrophe t = s.source.slice token.start token.stop := by
  constructor
  · intro e r st t hs hsource
    have hfinds := finds_enclose t
    rw [← hsource] at hfinds
    obtain ⟨st', hst'⟩ := Store.tokenize_of_end hs (.cons hfinds rfl (.nil _)) .atEnd
    refine ⟨st', hst'.trans ?_⟩
    rw [tokenOf, tokenOf, List.take_length, List.take_zero, hsource, lineEnds_enclose]
    rfl
  · intro s p h token m hl hr hc
    have hout := pull_ok hr
    have ho : p.closed = false := by
      refine Bool.eq_false_iff.mpr fun hclosed => ?_
      rw [pull_of_closed hclosed] at hr
      cases hr
    have hshow := shows_bootstrapOutcome hl p
    rw [show s.bootstrapOutcome p = s.outcome p by simp [outcome, ho, readOutcome, hl], hout]
      at hshow
    generalize hf : finding s.source p.pos = f at hshow
    cases hshow with
    | token _ =>
      have hlt := (List.getElem?_eq_some_iff.mp hc).1
      have hp : p.pos ≤ s.source.length := Nat.le_trans (le_start_of_finding hf) (Nat.le_of_lt hlt)
      exact enclose_of_finds ((finds_iff hp).mpr hf.symm) hc

/-- A text with an apostrophe, a line end and a character that is illegal elsewhere; and a string
that ends at the apostrophe before the doubled one, since no other closes it. -/
theorem Scanner.strings_read_back_unclosed :
    (∃ st', Store.tokenize .initial .bootstrap
        ⟨['\'', 'a', '\'', '\'', '\n', '#', '\''], none, .nothing⟩ .initial =
      .ok [⟨.bootstrap .ident, some ['a', '\'', '\n', '#'], 0, 7, some 1⟩,
        ⟨.bootstrap .endOfInput, none, 7, 7, some 2⟩] st') ∧
    ∃ t, some ['a'] = some t ∧ enclose apostrophe t = ['\'', 'a', '\''] := by
  constructor
  · exact strings_read_back.1 .initial
      ⟨['\'', 'a', '\'', '\'', '\n', '#', '\''], none, .nothing⟩ .initial ['a', '\'', '\n', '#']
      trivial rfl
  · let s : Scanner :=
      ⟨0, some .bootstrap, ['\'', 'a', '\'', '\'', 'b'], .nothing, 0, false, none⟩
    obtain ⟨m, hm⟩ : ∃ m, s.pull ⟨.initial, .initial⟩ =
        .ok ⟨.bootstrap .ident, some ['a'], 0, 3, some 1⟩ m := ⟨_, rfl⟩
    exact (strings_read_back.2 s .initial .initial _ m rfl hm rfl).2

end MiniLex
