import Mathlib.Algebra.Group.Nat.Even
import MiniLex.Proofs.Bootstrap.Joining
import MiniLex.Proofs.Bootstrap.Quoting

/-!
# Strings that never close

A string that never closes is read up to the first half of its last doubled
apostrophe, as if it were complete. It does not go unnoticed:

* `finds_illegal_of_apostrophe` from `Seam`: the second half of the pair is
  refused next;
* `Finds.lastAt_of_illegal`: an apostrophe is refused only if no other stands
  behind it, since a string would end there;
* `Finds.even_iff`: in a text without comments, all that is found takes an even
  number of apostrophes. So the text is tokenized if it holds an even number of
  them, and else its last apostrophe is refused (`even_of_yields_end`,
  `odd_of_yields_illegal`).

`Scanner.open_string_refused` puts these facts together for scans.
-/

namespace MiniLex

namespace Bootstrap

variable {source w : Text} {r : Rule} {f : Finding} {c : Char} {i j k : Nat}
  {tokens : List Token}

/-- A character stands at an offset, and nowhere behind it. -/
structure LastAt (source : Text) (c : Char) (i : Nat) : Prop where
  here : source[i]? = some c
  last : c ∉ source.drop (i + 1)

/-- The count of a character is that before its last place, and one more. -/
theorem LastAt.count_eq (h : LastAt source c i) :
    source.count c = (source.take i).count c + 1 := by
  have hdrop := Text.drop_eq_cons h.here
  have hrest : (source.drop (i + 1)).count c = 0 := List.count_eq_zero.mpr h.last
  calc source.count c
      = (source.take i ++ source.drop i).count c := by rw [List.take_append_drop]
    _ = (source.take i).count c + 1 := by
        rw [List.count_append, hdrop, List.count_cons_self, hrest]

/-! ## Where an apostrophe is refused -/

/-- Where a character is refused, no rule matches anything. -/
theorem Finds.not_matchesAt (h : Finds source i (.illegal c j)) (r : Rule) (w : Text) :
    ¬r.MatchesAt source j w := by
  generalize hf : Finding.illegal c j = f at h
  induction h with
  | atEnd => cases hf
  | skip _ _ _ ih => exact ih hf
  | token _ _ _ => cases hf
  | illegal _ hnone =>
    obtain ⟨rfl, rfl⟩ := Finding.illegal.inj hf
    intro hm
    have hpos := hm.length_pos
    rw [hnone r w hm] at hpos
    exact Nat.lt_irrefl _ hpos

/-- An apostrophe that is refused is the last one. With the next one behind it, it would be a
string. -/
theorem Finds.lastAt_of_illegal (h : Finds source i (.illegal apostrophe j)) :
    LastAt source apostrophe j := by
  have hhere := h.gap_of_illegal.2
  refine ⟨hhere, fun hmem => ?_⟩
  obtain ⟨inside, rest, hrest, hnone⟩ := List.eq_append_cons_of_mem hmem
  refine h.not_matchesAt .string (apostrophe :: (inside ++ [apostrophe])) ⟨by simp, ?_, rest, ?_⟩
  · exact .string (Doubled.decodes_of_not_mem hnone)
  · rw [Text.drop_eq_cons hhere, hrest]
    simp

/-- A character that is refused is inside the text. -/
theorem le_length_of_finding_illegal (h : finding source i = .illegal c j) :
    i ≤ source.length := by
  refine Nat.le_of_not_lt fun hlt => ?_
  have hgap := le_gapEnd source i
  have hdrop : source.drop (gapEnd source i) = [] := List.drop_eq_nil_of_le (by omega)
  rw [finding, hdrop, Reading.read] at h
  cases h

/-! ## Texts without comments -/

/-- Characters of words, of gaps without comments, of marks and of strings. -/
def Plain (c : Char) : Prop :=
  WordChar c ∨ c ∈ [' ', '\t', '\r', '\n'] ∨ c ∈ [',', '=', '(', ')'] ∨ c = apostrophe

theorem not_plain_numberSign : ¬Plain '#' := by
  simp only [Plain, WordChar]
  decide

theorem not_wordChar_apostrophe : ¬WordChar apostrophe := by
  simp only [WordChar]
  decide

theorem even_count_of_not_mem (h : apostrophe ∉ w) : Even (w.count apostrophe) := by
  rw [List.count_eq_zero.mpr h]
  exact Even.zero

theorem even_count_singleton (h : c ≠ apostrophe) : Even ([c].count apostrophe) :=
  even_count_of_not_mem fun hmem => h (List.mem_singleton.mp hmem).symm

/-- A rule that matches something else than a comment takes an even number of apostrophes. -/
theorem Rule.Matches.even_count (h : r.Matches w) (hr : r ≠ .comment) :
    Even (w.count apostrophe) := by
  cases h with
  | lineEnd => exact even_count_singleton (by decide)
  | blank hc => exact even_count_singleton fun heq => absurd (heq ▸ hc) (by decide)
  | comment _ => exact absurd rfl hr
  | word _ hall => exact even_count_of_not_mem fun hmem => not_wordChar_apostrophe (hall _ hmem)
  | string hdec =>
    rw [List.count_cons_self, List.count_append, List.count_singleton_self, Nat.add_assoc]
    exact hdec.even_count.add ⟨1, rfl⟩
  | mark hc => exact even_count_singleton fun heq => absurd (heq ▸ hc) (by decide)

/-- No comment stands in a plain text, so what is matched there takes an even number of
apostrophes. -/
theorem Rule.MatchesAt.even_count (hp : ∀ c ∈ source, Plain c) (h : r.MatchesAt source i w) :
    Even (w.count apostrophe) := by
  refine h.matched.even_count ?_
  rintro rfl
  obtain ⟨c, t, rfl, hc, -⟩ := h.eq_ofFirst
  have hm := h.matched
  cases hm with
  | comment _ => exact not_plain_numberSign (hp _ (List.mem_of_getElem? hc))

theorem Rule.MatchesAt.take_add (h : r.MatchesAt source i w) :
    source.take (i + w.length) = source.take i ++ w := by
  rw [List.take_add, ← List.prefix_iff_eq_take.mp h.stands]

/-- The offset behind what is found; that of a character that is refused. -/
def Finding.stop : Finding → Nat
  | token _ _ _ stop => stop
  | illegal _ i => i

/-- What is found in a plain text, with the gap before it, takes an even number of apostrophes. -/
theorem Finds.even_iff (hp : ∀ c ∈ source, Plain c) (h : Finds source i f) :
    Even ((source.take f.stop).count apostrophe) ↔ Even ((source.take i).count apostrophe) := by
  have hmatch : ∀ {r : Rule} {i : Nat} {w : Text}, r.MatchesAt source i w →
      (Even ((source.take (i + w.length)).count apostrophe) ↔
        Even ((source.take i).count apostrophe)) := by
    intro r i w hm
    rw [hm.take_add, List.count_append, Nat.even_add]
    exact iff_true_right (hm.even_count hp)
  induction h with
  | atEnd => exact Iff.rfl
  | skip hl _ _ ih => exact ih.trans (hmatch hl.found)
  | token hl _ _ => exact hmatch hl.found
  | illegal _ _ => exact Iff.rfl

theorem Passes.even_iff (hp : ∀ c ∈ source, Plain c) (h : Passes source i tokens j) :
    Even ((source.take j).count apostrophe) ↔ Even ((source.take i).count apostrophe) := by
  induction h with
  | nil => exact Iff.rfl
  | cons hf _ _ ih => exact ih.trans (hf.even_iff hp)

/-- A plain character at which no rule matches anything is an apostrophe. -/
theorem Plain.eq_apostrophe (h : Plain c) (hc : source[i]? = some c)
    (hnone : ∀ (r : Rule) (w : Text), ¬r.MatchesAt source i w) : c = apostrophe := by
  have hstands := singleton_prefix_drop hc
  rcases h with hword | hgap | hmark | h
  · refine absurd ⟨by simp, .word (by simp) fun d hd => ?_, hstands⟩ (hnone .word [c])
    rwa [List.mem_singleton.mp hd]
  · by_cases hline : c = '\n'
    · exact absurd ⟨by simp, hline ▸ .lineEnd, hstands⟩ (hnone .lineEnd [c])
    · have hblank : c ∈ [' ', '\t', '\r'] := by
        simp only [List.mem_cons, List.not_mem_nil, or_false] at hgap ⊢
        tauto
      exact absurd ⟨by simp, .blank hblank, hstands⟩ (hnone .blank [c])
  · exact absurd ⟨by simp, .mark hmark, hstands⟩ (hnone .mark [c])
  · exact h

/-! ## All that a text gives -/

/-- Every text gives tokens up to its end, or up to a character that is refused. By induction on the
text that is left: each token takes some of it. -/
theorem exists_yields (hi : i ≤ source.length) :
    ∃ tokens, Yields source i tokens
        (.token (.bootstrap .endOfInput) none source.length source.length) ∨
      ∃ c j, Yields source i tokens (.illegal c j) := by
  induction hn : source.length - i using Nat.strongRecOn generalizing i with
  | ind n ih =>
    have hf := finds_finding hi
    generalize finding source i = f at hf
    cases f with
    | illegal c j => exact ⟨[], .inr ⟨c, j, _, .nil _, hf⟩⟩
    | token kind value start stop =>
      cases hk : kind.isEnd with
      | true =>
        rw [hf.eq_end hk] at hf
        exact ⟨[], .inl ⟨_, .nil _, hf⟩⟩
      | false =>
        obtain ⟨hgap, hin⟩ := hf.gap_of_token none
        have hle : i ≤ start := hgap.le
        have hlt : start < stop := hin.takes hk
        have hstop : stop ≤ source.length := hin.stop_le
        obtain ⟨tokens, hyields⟩ := ih (source.length - stop) (by omega) hstop rfl
        refine ⟨_ :: tokens, hyields.imp (fun h => h.cons hf hk) ?_⟩
        rintro ⟨c, j, h⟩
        exact ⟨c, j, h.cons hf hk⟩

/-- A plain text that gives tokens up to its end holds an even number of apostrophes. -/
theorem even_of_yields_end (hp : ∀ c ∈ source, Plain c)
    (h : Yields source 0 tokens
      (.token (.bootstrap .endOfInput) none source.length source.length)) :
    Even (source.count apostrophe) := by
  obtain ⟨j, hpass, hf⟩ := h
  have heven := (hf.even_iff hp).trans (hpass.even_iff hp)
  rw [Finding.stop, List.take_length, List.take_zero, List.count_nil] at heven
  exact heven.mpr Even.zero

/-- What a plain text is refused for is its last apostrophe, and there is an odd number of them. -/
theorem odd_of_yields_illegal (hp : ∀ c ∈ source, Plain c)
    (h : Yields source 0 tokens (.illegal c k)) :
    c = apostrophe ∧ LastAt source apostrophe k ∧ ¬Even (source.count apostrophe) := by
  obtain ⟨j, hpass, hf⟩ := h
  have hc := hf.gap_of_illegal.2
  obtain rfl := (hp c (List.mem_of_getElem? hc)).eq_apostrophe hc hf.not_matchesAt
  have hlast := hf.lastAt_of_illegal
  have heven := (hf.even_iff hp).trans (hpass.even_iff hp)
  rw [Finding.stop, List.take_zero, List.count_nil] at heven
  rw [hlast.count_eq, Nat.even_add_one, not_not]
  exact ⟨rfl, hlast, heven.mpr Even.zero⟩

end Bootstrap

namespace Scanner

open Bootstrap

variable {s : Scanner} {p : Progress} {h : Host} {m : Machine} {token : Token} {c : Char}
  {line : Nat} {name : Setting}

/-- A token that is returned is what reading finds. The scan is open behind it. -/
theorem finding_of_pull_ok (hl : s.rules = some .bootstrap) (hr : s.pull ⟨p, h⟩ = .ok token m) :
    finding s.source p.pos = .token token.kind token.value token.start token.stop ∧
      m.progress.pos = token.stop ∧ m.progress.closed = false := by
  have ho : p.closed = false := open_of_pull (m := ⟨p, h⟩) (by rw [hr]; nofun)
  have hshow := shows_outcome hl ho
  rw [pull_ok hr] at hshow
  generalize finding s.source p.pos = f at hshow
  cases hshow with
  | token hq => exact ⟨rfl, hq.pos, hq.closed.trans ho⟩

/-- A character that is refused is what reading finds at the cursor. -/
theorem finding_of_pull_illegal (hl : s.rules = some .bootstrap)
    (hr : s.pull ⟨p, h⟩ = .error (.illegalCharacter line c name) m) :
    finding s.source p.pos = .illegal c m.progress.pos := by
  have ho : p.closed = false := open_of_pull (m := ⟨p, h⟩) (by rw [hr]; nofun)
  have hshow := shows_outcome hl ho
  rcases pull_bootstrap_error hl ho hr with hout | ⟨fault, l, he, -⟩
  · rw [hout] at hshow
    generalize finding s.source p.pos = f at hshow
    cases hshow with
    | illegal hq => rw [hq.pos]
  · cases he

/-- Where an apostrophe follows a string that was returned, the next pull refuses it. -/
theorem pull_of_apostrophe {h' : Host} (hl : s.rules = some .bootstrap)
    (hr : s.pull ⟨p, h⟩ = .ok token m) (hstart : s.source[token.start]? = some apostrophe)
    (hstop : s.source[token.stop]? = some apostrophe) (hs : h'.memory.Serves s.allocator) :
    ∃ line m', s.pull ⟨m.progress, h'⟩ =
        .error (.illegalCharacter line apostrophe s.sourceName) m' ∧
      m'.progress.pos = token.stop := by
  obtain ⟨hfind, hpos, ho⟩ := finding_of_pull_ok hl hr
  have hlt := (List.getElem?_eq_some_iff.mp hstart).1
  have hp : p.pos ≤ s.source.length := Nat.le_trans (le_start_of_finding hfind) (Nat.le_of_lt hlt)
  have hf := (finds_iff hp).mpr hfind.symm
  have hlong := hf.longest_string hstart
  have hend : token.start + (s.source.slice token.start token.stop).length = token.stop := by
    have hin := (hf.gap_of_token none).2
    have hle : token.start ≤ token.stop := hin.start_le
    rw [Text.length_slice hin.stop_le]
    exact Nat.add_sub_of_le hle
  have hill := finds_illegal_of_apostrophe hlong (by rwa [hend])
  rw [hend, ← hpos] at hill
  have hle := Nat.le_of_lt (List.getElem?_eq_some_iff.mp hstop).1
  obtain ⟨line, m', hpull, hpos'⟩ :=
    ((pull_iff_finds hl ho (hpos ▸ hle) hs).2.2.1 _ _).mp hill
  exact ⟨line, m', hpull, hpos'.trans hpos⟩

/-- An apostrophe that a pull refuses is the last one of the source. -/
theorem lastAt_of_pull (hl : s.rules = some .bootstrap)
    (hr : s.pull ⟨p, h⟩ = .error (.illegalCharacter line apostrophe name) m) :
    LastAt s.source apostrophe m.progress.pos := by
  have hfind := finding_of_pull_illegal hl hr
  exact ((finds_iff (le_length_of_finding_illegal hfind)).mpr hfind.symm).lastAt_of_illegal

end Scanner

namespace Store

open Bootstrap

variable {e : Ambient} {r : Request} {st : Store}

/-- A plain text with an even number of apostrophes is tokenized, and one with an odd number is
refused for the last of them. -/
theorem tokenize_plain
    (hs : st.host.memory.Serves (r.scanner e (some .bootstrap) st.scans.length).allocator)
    (hp : ∀ c ∈ r.source, Plain c) :
    (Even (r.source.count apostrophe) → ∃ tokens st', tokenize e .bootstrap r st = .ok tokens st') ∧
    (¬Even (r.source.count apostrophe) → ∃ k st', LastAt r.source apostrophe k ∧
      tokenize e .bootstrap r st = .error (.illegalCharacter
        (1 + Text.lineEnds (r.source.take k)) apostrophe
        (r.sourceName.orElse e.config.sourceName)) st') := by
  obtain ⟨tokens, hyields | ⟨c, k, hyields⟩⟩ := exists_yields (Nat.zero_le r.source.length)
  · have heven := even_of_yields_end hp hyields
    obtain ⟨j, hpass, hf⟩ := hyields
    obtain ⟨st', h⟩ := tokenize_of_end hs hpass hf
    exact ⟨fun _ => ⟨_, st', h⟩, fun hodd => absurd heven hodd⟩
  · obtain ⟨rfl, hlast, hodd⟩ := odd_of_yields_illegal hp hyields
    obtain ⟨j, hpass, hf⟩ := hyields
    obtain ⟨st', h⟩ := tokenize_of_illegal hs hpass hf
    exact ⟨fun heven => absurd heven hodd, fun _ => ⟨k, st', hlast, h⟩⟩

/-- A string that never closes is not accepted in silence. If an apostrophe follows a string that a
pull returned, the next pull refuses it, with the cursor where the string ends. An apostrophe that
is refused is the last one of the source. A text of characters that are legal outside comments is
tokenized if and only if it holds an even number of apostrophes, and else refused for the last of
them, on its line. -/
theorem open_string_refused :
    (∀ (s : Scanner) (p : Progress) (h h' : Host) (token : Token) (m : Machine),
      s.rules = some .bootstrap → s.pull ⟨p, h⟩ = .ok token m →
      s.source[token.start]? = some apostrophe → s.source[token.stop]? = some apostrophe →
      h'.memory.Serves s.allocator →
      ∃ line m', s.pull ⟨m.progress, h'⟩ =
          .error (.illegalCharacter line apostrophe s.sourceName) m' ∧
        m'.progress.pos = token.stop) ∧
    (∀ (s : Scanner) (p : Progress) (h : Host) (line : Nat) (name : Setting) (m : Machine),
      s.rules = some .bootstrap →
      s.pull ⟨p, h⟩ = .error (.illegalCharacter line apostrophe name) m →
      LastAt s.source apostrophe m.progress.pos) ∧
    ∀ (e : Ambient) (r : Request) (st : Store),
      st.host.memory.Serves (r.scanner e (some .bootstrap) st.scans.length).allocator →
      (∀ c ∈ r.source, Plain c) →
      ((∃ tokens st', tokenize e .bootstrap r st = .ok tokens st') ↔
        Even (r.source.count apostrophe)) ∧
      (¬Even (r.source.count apostrophe) → ∃ k st', LastAt r.source apostrophe k ∧
        tokenize e .bootstrap r st = .error (.illegalCharacter
          (1 + Text.lineEnds (r.source.take k)) apostrophe
          (r.sourceName.orElse e.config.sourceName)) st') := by
  refine ⟨fun s p h h' token m => Scanner.pull_of_apostrophe,
    fun s p h line name m => Scanner.lastAt_of_pull, fun e r st hs hp => ?_⟩
  obtain ⟨heven, hodd⟩ := tokenize_plain hs hp
  refine ⟨⟨fun ⟨tokens, st', h⟩ => ?_, heven⟩, hodd⟩
  by_contra hne
  obtain ⟨k, st'', -, h'⟩ := hodd hne
  rw [h'] at h
  cases h

/-- A string that is cut short at a doubled apostrophe; one that never closes on the third line; and
one that closes there. -/
theorem open_string_refused_third_line :
    (∃ m m' line, Scanner.pull ⟨0, some .bootstrap, ['\'', 'a', '\'', '\'', 'b'], .nothing, 0, false,
        none⟩ ⟨.initial, .initial⟩ = .ok ⟨.bootstrap .ident, some ['a'], 0, 3, some 1⟩ m ∧
      Scanner.pull ⟨0, some .bootstrap, ['\'', 'a', '\'', '\'', 'b'], .nothing, 0, false, none⟩ m =
        .error (.illegalCharacter line '\'' .nothing) m' ∧
      m'.progress.pos = 3 ∧ LastAt ['\'', 'a', '\'', '\'', 'b'] '\'' m'.progress.pos) ∧
    (∃ k st', LastAt ['\'', '\n', '\'', '\n', '\''] '\'' k ∧
      tokenize .initial .bootstrap ⟨['\'', '\n', '\'', '\n', '\''], none, .nothing⟩ .initial =
        .error (.illegalCharacter
          (1 + Text.lineEnds (List.take k ['\'', '\n', '\'', '\n', '\''])) '\'' .nothing) st') ∧
    ∃ tokens st', tokenize .initial .bootstrap ⟨['\'', '\n', '\n', '\''], none, .nothing⟩
      .initial = .ok tokens st' := by
  refine ⟨?_, ?_, ?_⟩
  · let s : Scanner :=
      ⟨0, some .bootstrap, ['\'', 'a', '\'', '\'', 'b'], .nothing, 0, false, none⟩
    obtain ⟨m, hm, hs⟩ : ∃ m, s.pull ⟨.initial, .initial⟩ =
          .ok ⟨.bootstrap .ident, some ['a'], 0, 3, some 1⟩ m ∧
        m.host.memory.Serves s.allocator := ⟨_, rfl, trivial⟩
    obtain ⟨line, m', hm', hpos⟩ :=
      open_string_refused.1 s .initial .initial m.host _ m rfl hm rfl rfl hs
    have hlast := open_string_refused.2.1 s m.progress m.host line _ m' rfl hm'
    exact ⟨m, m', line, hm, hm', hpos, hlast⟩
  · exact (open_string_refused.2.2 .initial
      ⟨['\'', '\n', '\'', '\n', '\''], none, .nothing⟩ .initial trivial
        (by simp [Plain, apostrophe])).2 (by decide)
  · exact (open_string_refused.2.2 .initial ⟨['\'', '\n', '\n', '\''], none, .nothing⟩ .initial
      trivial (by simp [Plain, apostrophe])).1.mpr (by decide)

end Store

end MiniLex
