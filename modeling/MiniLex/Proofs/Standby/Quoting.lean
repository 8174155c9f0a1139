import MiniLex.Proofs.Standby.Listing

/-!
# Quoted names are read back

Quoting is undone by scanning, and it is all that scanning undoes:

* `lists_quotedNames`: quoted names with commas between them are read as these
  names and commas;
* `quote_of_reads`: a name that is read from a quote on stands in the text as
  the quoted form of that name.

Both rest on `Doubled.Decodes`, which relates a text to its encoding and to no
other inside. `collect_quotedNames` puts the two together for scans.
-/

namespace MiniLex

namespace Standby

variable {source : Text} {i p : Nat} {t : Token} {name : Text} {names : List Text}

/-- The quoted forms of names, with commas between them. -/
def quotedNames (names : List Text) : Text := [','].intercalate (names.map quote)

/-- The tokens of quoted names with commas between them that begin at an offset and end the text. -/
def quotedTokens : Nat → List Text → List Token
  | i, [] => [⟨.standby .endOfInput, none, i, i, none⟩]
  | i, [name] =>
    let stop := i + (quote name).length
    [⟨.standby .name, some name, i, stop, none⟩, ⟨.standby .endOfInput, none, stop, stop, none⟩]
  | i, name :: other :: names =>
    let stop := i + (quote name).length
    ⟨.standby .name, some name, i, stop, none⟩ :: ⟨.standby .comma, none, stop, stop + 1, none⟩ ::
      quotedTokens (stop + 1) (other :: names)

theorem length_quote (name : Text) :
    (quote name).length = (Doubled.encode '"' name).length + 2 := by
  simp [quote, doubleQuote, Doubled.enclose]

theorem quotedNames_cons_cons (name other : Text) (names : List Text) :
    quotedNames (name :: other :: names) = quote name ++ ',' :: quotedNames (other :: names) := by
  simp [quotedNames, List.intercalate]

/-! ## Names are read from their quoted forms -/

/-- No blanks are skipped where another character stands. -/
theorem longestRun_blank_of_drop {c : Char} {rest : Text} (h : source.drop p = c :: rest)
    (hc : isBlank c = false) : source.LongestRun Blank p p := by
  have hget := Text.getElem?_of_drop_eq_cons h
  have hlt := Text.lt_length_of_drop_eq_cons h
  refine Text.longestRun_self (Nat.le_of_lt hlt) fun d hd hblank => ?_
  rw [hget] at hd
  rw [← Option.some.inj hd, ← isBlank_iff, hc] at hblank
  exact Bool.false_ne_true hblank

/-- A quoted name is read as that name if no further quote follows. -/
theorem lists_quote {rest : Text} {tokens : List Token} (h : source.drop p = quote name ++ rest)
    (hr : rest.head? ≠ some '"') (htokens : Lists source (p + (quote name).length) tokens) :
    Lists source p (⟨.standby .name, some name, p, p + (quote name).length, none⟩ :: tokens) := by
  have hd : source.drop p = '"' :: (Doubled.encode '"' name ++ '"' :: rest) := by
    rw [h, quote, Doubled.enclose]
    simp [doubleQuote]
  have hreads := Reads.quoted hd (Doubled.decodes_encode '"' name) hr
  rw [← length_quote] at hreads
  exact .cons (longestRun_blank_of_drop hd (by decide)) hreads rfl htokens

theorem lists_comma {rest : Text} {tokens : List Token} (h : source.drop p = ',' :: rest)
    (htokens : Lists source (p + 1) tokens) :
    Lists source p (⟨.standby .comma, none, p, p + 1, none⟩ :: tokens) :=
  .cons (longestRun_blank_of_drop h (by decide)) (.comma (Text.getElem?_of_drop_eq_cons h)) rfl
    htokens

theorem lists_atEnd (h : p = source.length) :
    Lists source p [⟨.standby .endOfInput, none, p, p, none⟩] :=
  .of_isEnd (t := ⟨.standby .endOfInput, none, p, p, none⟩) (.atEnd h) rfl

/-- Quoted names with commas between them are read as these names and commas. -/
theorem lists_quotedNames (hn : names ≠ []) (h : source.drop i = quotedNames names) :
    Lists source i (quotedTokens i names) := by
  induction names generalizing i with
  | nil => exact absurd rfl hn
  | cons name names ih =>
    cases names with
    | nil =>
      have hd : source.drop i = quote name ++ [] := by
        simpa [quotedNames, List.intercalate] using h
      have hend : i + (quote name).length = source.length := by
        have hlen := congrArg List.length hd
        have hpos := length_quote name
        rw [List.length_drop, List.append_nil] at hlen
        omega
      exact lists_quote hd (by simp) (lists_atEnd hend)
    | cons other names =>
      rw [quotedNames_cons_cons] at h
      have hcomma := Text.drop_add_of_drop_eq_append h
      have hrest : source.drop (i + (quote name).length + 1) = quotedNames (other :: names) :=
        Text.drop_add_of_drop_eq_append (u := [',']) hcomma
      exact lists_quote h (by simp) (lists_comma hcomma (ih (by simp) hrest))

/-- A quoted name that never ends is read as junk. -/
theorem not_unclosed_of_reads (h : Reads source p t) (hk : t.kind ≠ .standby .junk) :
    ¬Unclosed source p := by
  intro ⟨inside, value, hd, hdec⟩
  have hjunk := (Reads.unclosed hd hdec).eq_tokenAt
  rw [h.eq_tokenAt, ← hjunk] at hk
  exact hk rfl

theorem ne_junk_of_mem_quotedTokens (names : List Text) (i : Nat) :
    ∀ t ∈ quotedTokens i names, t.kind ≠ .standby .junk := by
  fun_induction quotedTokens i names <;> simp_all

/-! ## Quoted forms are read as their names -/

/-- A name that is read from a quote on stands in the text as the quoted form of that name. -/
theorem quote_of_reads (h : Reads source p t) (hk : t.kind = .standby .name)
    (hq : source[p]? = some '"') :
    ∃ name, t.value = some name ∧ quote name = source.slice t.start t.stop := by
  have hquote : ¬NameStart '"' := by
    rw [← isNameStart_iff]
    decide
  have hother : ∀ {c}, source[p]? = some c → c = '"' := by
    intro c hc
    rw [hq] at hc
    exact (Option.some.inj hc).symm
  cases h with
  | name hc hs _ _ _ => exact absurd (hother hc ▸ hs) hquote
  | star hc => exact absurd (hother hc) (by decide)
  | @quoted inside value rest hd hdec _ =>
    have hsplit : source.drop p = quote value ++ rest := by
      rw [hd, hdec.eq_encode, quote, Doubled.enclose]
      simp [doubleQuote]
    refine ⟨value, rfl, ?_⟩
    rw [hdec.eq_encode, ← length_quote, Text.slice_of_drop_eq_append hsplit]
  | _ => cases hk

end Standby

namespace Scanner

open Standby

variable {s : Scanner} {h : Host}

/-- Quoting and scanning undo each other. Quoted names with commas between them are scanned to these
names and commas, each with the span of its piece, and no error is kept. In the scan of any text, a
name whose span begins with a quote has its own quoted form as its text. -/
theorem collect_quotedNames (hl : s.rules = some .standby) (hs : h.memory.Serves s.allocator) :
    (∀ names, names ≠ [] → s.source = quotedNames names →
      ∃ m, s.collect ⟨.initial, h⟩ = .ok (quotedTokens 0 names) m ∧ m.progress.error = none) ∧
    ∃ tokens m, s.collect ⟨.initial, h⟩ = .ok tokens m ∧
      ∀ t ∈ tokens, t.kind = .standby .name → s.source[t.start]? = some '"' →
        ∃ name, t.value = some name ∧ quote name = s.source.slice t.start t.stop := by
  constructor
  · intro names hn hsource
    have hlists : Lists s.source 0 (quotedTokens 0 names) := lists_quotedNames hn hsource
    obtain ⟨m, hm, herror⟩ := collect_lists hl hlists hs
    refine ⟨m, hm, herror fun t ht => ?_⟩
    exact not_unclosed_of_reads (hlists.reads t ht) (ne_junk_of_mem_quotedTokens names 0 t ht)
  · obtain ⟨tokens, hlists⟩ := exists_lists (Nat.zero_le s.source.length)
    obtain ⟨m, hm, -⟩ := collect_lists hl hlists hs
    exact ⟨tokens, m, hm, fun t ht => quote_of_reads (hlists.reads t ht)⟩

/-- A name of quotes, an empty one and one with a line end, scanned with the shared heap. -/
theorem collect_quotedNames_of_quotes :
    let names : List Text := [['"', '"'], [], ['a', '"', '\n']]
    let s : Scanner :=
      ⟨0, some .standby, quotedNames names, .nothing, Memory.sharedHeap, false, none⟩
    s.source = "\"\"\"\"\"\",\"\",\"a\"\"\n\"".toList ∧
      (∃ m, s.collect ⟨.initial, .initial⟩ = .ok (quotedTokens 0 names) m ∧
        m.progress.error = none) ∧
      ∃ tokens m, s.collect ⟨.initial, .initial⟩ = .ok tokens m ∧
        ∀ t ∈ tokens, t.kind = .standby .name → s.source[t.start]? = some '"' →
          ∃ name, t.value = some name ∧ quote name = s.source.slice t.start t.stop := by
  intro names s
  obtain ⟨hnames, hquotes⟩ := collect_quotedNames (s := s) (h := .initial) rfl trivial
  exact ⟨by decide, hnames names (by decide) rfl, hquotes⟩

end Scanner

end MiniLex
