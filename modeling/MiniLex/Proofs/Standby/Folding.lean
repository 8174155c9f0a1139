import MiniLex.Proofs.Standby.Joining
import MiniLex.Proofs.Standby.OpenName

/-!
# Standby lists in lower case

A scan of a list whose ASCII letters are put in lower case first gives the same
tokens, with their values put in lower case:

* `blank_toLower`, `digit_toLower`, `nameStart_toLower`, `nameChar_toLower`: no
  character changes its class;
* `Text.LongestRun.foldCase`, `Doubled.Decodes.foldCase`: nor do runs and quoted
  names end elsewhere;
* `Reads.foldCase`, `Lists.foldCase`: what the rules give, for one token and for
  all of them.

`Store.tokenize_foldCase` says so of scans. A keyword has ASCII letters only.
-/

namespace MiniLex

/-- The token with its value in lower case. -/
def Token.foldCase (t : Token) : Token := { t with value := t.value.map Text.foldCase }

namespace Text

variable {t u w : Text} {P : Char → Prop} {start stop i : Nat} {c : Char}

theorem foldCase_foldCase (t : Text) : foldCase (foldCase t) = foldCase t := by
  rw [foldCase, foldCase, List.map_map]
  exact List.map_congr_left fun c _ => toLower_toLower c

theorem drop_foldCase (t : Text) (i : Nat) : (foldCase t).drop i = foldCase (t.drop i) :=
  List.map_drop.symm

theorem slice_foldCase (t : Text) (start stop : Nat) :
    (foldCase t).slice start stop = foldCase (t.slice start stop) := by
  rw [slice, drop_foldCase, foldCase, ← List.map_take]
  rfl

theorem getElem?_foldCase (t : Text) (i : Nat) : (foldCase t)[i]? = t[i]?.map Char.toLower :=
  List.getElem?_map

/-- A run of a class that no letter leaves or enters by its case ends where it did. -/
theorem LongestRun.foldCase (hP : ∀ c : Char, P c.toLower ↔ P c)
    (h : t.LongestRun P start stop) : (foldCase t).LongestRun P start stop := by
  refine ⟨h.le, by rw [length_foldCase]; exact h.le_length, fun i hi hi' => ?_, fun c hc => ?_⟩
  · obtain ⟨c, hc, hPc⟩ := h.all i hi hi'
    exact ⟨c.toLower, by rw [getElem?_foldCase, hc]; rfl, (hP c).mpr hPc⟩
  · rw [getElem?_foldCase, Option.map_eq_some_iff] at hc
    obtain ⟨d, hd, rfl⟩ := hc
    rw [hP]
    exact h.next d hd

/-- A word is the same up to case whether it is put in lower case or not. -/
theorem sameWord_foldCase (hw : w.any Char.isUpper = false) :
    SameWord (foldCase u) w ↔ SameWord u w := by
  rw [← foldCase_eq_iff hw, ← foldCase_eq_iff hw, foldCase_foldCase]

end Text

/-- An inside in lower case stands for the text in lower case, if its delimiter is no letter. -/
theorem Doubled.Decodes.foldCase {q : Char} {inside text : Text}
    (hq : ∀ c : Char, c.toLower = q ↔ c = q) (h : Doubled.Decodes q inside text) :
    Doubled.Decodes q (Text.foldCase inside) (Text.foldCase text) := by
  have hself : q.toLower = q := (hq q).mpr rfl
  induction h with
  | nil => exact .nil
  | pair _ ih =>
    rw [Text.foldCase, Text.foldCase, List.map_cons, List.map_cons, List.map_cons, hself]
    exact .pair ih
  | char hne _ ih => exact .char (mt (hq _).mp hne) ih

namespace Standby

variable {source : Text} {i p : Nat} {c d : Char} {t : Token} {tokens : List Token}

/-! ## Classes of characters -/

theorem toLower_eq_quote_iff : c.toLower = '"' ↔ c = '"' :=
  Text.toLower_eq_iff_of_not_alpha (by decide)

theorem blank_toLower (c : Char) : Blank c.toLower ↔ Blank c :=
  Text.toLower_mem_iff (by decide)

theorem digit_toLower (c : Char) : Digit c.toLower ↔ Digit c := by
  rcases Text.toLower_cases c with h | ⟨hup, hlow⟩
  · rw [h]
  · refine iff_of_false ?_ ?_
    · intro hd
      exact absurd (Char.le_trans hlow.1 hd.2) (by decide)
    · intro hd
      exact absurd (Char.le_trans hup.1 hd.2) (by decide)

theorem nameStart_toLower (c : Char) : NameStart c.toLower ↔ NameStart c := by
  rcases Text.toLower_cases c with h | ⟨hup, hlow⟩
  · rw [h]
  · exact iff_of_true (.inr (.inl hlow)) (.inl hup)

theorem nameChar_toLower (c : Char) : NameChar c.toLower ↔ NameChar c := by
  rw [NameChar, NameChar, nameStart_toLower, digit_toLower,
    Text.toLower_eq_iff_of_not_alpha (d := '$') (by decide)]

/-! ## What the rules give -/

theorem Reads.foldCase (h : Reads source p t) : Reads source.foldCase p t.foldCase := by
  have hchar : ∀ {c : Char}, source[p]? = some c → source.foldCase[p]? = some c.toLower := by
    intro c hc
    rw [Text.getElem?_foldCase, hc]
    rfl
  have hmark : ∀ {c : Char}, c.isAlpha = false → source[p]? = some c →
      source.foldCase[p]? = some c := by
    intro c hc hget
    rw [hchar hget, (Text.toLower_eq_iff_of_not_alpha hc).mpr rfl]
  have hquote : '"'.toLower = '"' := rfl
  cases h with
  | atEnd hp => exact .atEnd (by rw [hp, Text.length_foldCase])
  | any hc hs hr hw =>
    refine .any (hchar hc) ((nameStart_toLower _).mpr hs) (hr.foldCase nameChar_toLower) ?_
    rwa [Text.slice_foldCase, Text.sameWord_foldCase (by decide)]
  | first hc hs hr hw =>
    refine .first (hchar hc) ((nameStart_toLower _).mpr hs) (hr.foldCase nameChar_toLower) ?_
    rwa [Text.slice_foldCase, Text.sameWord_foldCase (by decide)]
  | name hc hs hr ha hf =>
    have hname := Reads.name (hchar hc) ((nameStart_toLower _).mpr hs)
      (hr.foldCase nameChar_toLower)
    rw [Text.slice_foldCase, Text.sameWord_foldCase (by decide),
      Text.sameWord_foldCase (by decide)] at hname
    exact hname ha hf
  | number hc hd hr =>
    have hnumber := Reads.number (hchar hc) ((digit_toLower _).mpr hd) (hr.foldCase digit_toLower)
    rwa [Text.slice_foldCase] at hnumber
  | star hc => exact .star (hmark (by decide) hc)
  | comma hc => exact .comma (hmark (by decide) hc)
  | leftParen hc => exact .leftParen (hmark (by decide) hc)
  | rightParen hc => exact .rightParen (hmark (by decide) hc)
  | @quoted inside value rest hd hdec hr =>
    have hdrop : source.foldCase.drop p =
        '"' :: (Text.foldCase inside ++ '"' :: Text.foldCase rest) := by
      rw [Text.drop_foldCase, hd]
      simp [Text.foldCase, hquote]
    have hrest : (Text.foldCase rest).head? ≠ some '"' := by
      rw [Text.foldCase, List.head?_map]
      intro h
      obtain ⟨c, hc, hlower⟩ := Option.map_eq_some_iff.mp h
      exact hr (toLower_eq_quote_iff.mp hlower ▸ hc)
    have hquoted := Reads.quoted hdrop (hdec.foldCase fun _ => toLower_eq_quote_iff) hrest
    rwa [Text.length_foldCase] at hquoted
  | @unclosed inside value hd hdec =>
    have hdrop : source.foldCase.drop p = '"' :: Text.foldCase inside := by
      rw [Text.drop_foldCase, hd]
      simp [Text.foldCase, hquote]
    have hunclosed := Reads.unclosed hdrop (hdec.foldCase fun _ => toLower_eq_quote_iff)
    rwa [Text.length_foldCase] at hunclosed
  | junk hc hs hd hn =>
    refine .junk (hchar hc) (mt (nameStart_toLower _).mp hs) (mt (digit_toLower _).mp hd) ?_
    rwa [Text.toLower_mem_iff (by decide)]

theorem Lists.foldCase (h : Lists source i tokens) :
    Lists source.foldCase i (tokens.map Token.foldCase) := by
  induction h with
  | last hb hr hk => exact .last (hb.foldCase blank_toLower) hr.foldCase hk
  | cons hb hr hk _ ih => exact .cons (hb.foldCase blank_toLower) hr.foldCase hk ih

/-- A quoted name that never ends does not end in lower case either, and one that ends does. -/
theorem unclosed_foldCase_iff (h : Reads source t.start t) :
    Unclosed source.foldCase t.start ↔ Unclosed source t.start := by
  have hfold : Reads source.foldCase t.foldCase.start t.foldCase := h.foldCase
  rw [unclosed_iff_isOpenName h]
  refine (unclosed_iff_isOpenName hfold).trans (and_congr_right fun _ => ?_)
  show source.foldCase[t.start]? = some '"' ↔ _
  rw [Text.getElem?_foldCase, Option.map_eq_some_iff]
  constructor
  · rintro ⟨c, hc, hlower⟩
    rw [hc, toLower_eq_quote_iff.mp hlower]
  · intro hc
    exact ⟨'"', hc, rfl⟩

theorem exists_unclosed_foldCase_iff (h : Lists source i tokens) :
    (∃ t ∈ tokens.map Token.foldCase, Unclosed source.foldCase t.start) ↔
      ∃ t ∈ tokens, Unclosed source t.start := by
  constructor
  · rintro ⟨_, hmem, hu⟩
    obtain ⟨t, ht, rfl⟩ := List.mem_map.mp hmem
    exact ⟨t, ht, (unclosed_foldCase_iff (h.reads t ht)).mp hu⟩
  · intro ⟨t, ht, hu⟩
    exact ⟨t.foldCase, List.mem_map_of_mem ht, (unclosed_foldCase_iff (h.reads t ht)).mpr hu⟩

/-- A keyword has ASCII characters only. -/
theorem toNat_lt_of_keyword (h : Reads source p t)
    (hk : t.kind = .standby .any ∨ t.kind = .standby .first) :
    ∀ c ∈ source.slice t.start t.stop, c.toNat < 0x80 := by
  cases h with
  | any _ _ _ hw => exact hw.toNat_lt (by decide)
  | first _ _ _ hw => exact hw.toNat_lt (by decide)
  | _ => rcases hk with hk | hk <;> cases hk

end Standby

namespace Store

open Standby

variable {e e' : Ambient} {r r' : Request} {st st' : Store}

/-- Scans of a list and of the same list in lower case return the same tokens, but for the values,
which are in lower case too, and keep the same error or none, whatever their allocators do. Where
these never fail, both scans return tokens. No keyword is read from a word with a character outside
ASCII. -/
theorem tokenize_foldCase (hsource : r'.source = r.source.foldCase) :
    (∀ tokens st₁ tokens' st₁', tokenize e .standby r st = .ok tokens st₁ →
      tokenize e' .standby r' st' = .ok tokens' st₁' →
      tokens' = tokens.map Token.foldCase ∧
        (st₁'.scan st'.scans.length).progress.error = (st₁.scan st.scans.length).progress.error ∧
        ∀ t ∈ tokens, t.kind = .standby .any ∨ t.kind = .standby .first →
          ∀ c ∈ r.source.slice t.start t.stop, c.toNat < 0x80) ∧
    (st.host.memory.Serves (r.scanner e (some .standby) st.scans.length).allocator →
      st'.host.memory.Serves (r'.scanner e' (some .standby) st'.scans.length).allocator →
      ∃ tokens st₁ st₁', tokenize e .standby r st = .ok tokens st₁ ∧
        tokenize e' .standby r' st' = .ok (tokens.map Token.foldCase) st₁') := by
  have hsame : ∀ tokens st₁ tokens' st₁', tokenize e .standby r st = .ok tokens st₁ →
      tokenize e' .standby r' st' = .ok tokens' st₁' → tokens' = tokens.map Token.foldCase ∧
        (st₁'.scan st'.scans.length).progress.error =
          (st₁.scan st.scans.length).progress.error := by
    intro tokens st₁ tokens' st₁' h h'
    obtain ⟨hlists, hrecords⟩ := lists_of_tokenize_ok h
    obtain ⟨hlists', hrecords'⟩ := lists_of_tokenize_ok h'
    rw [hsource] at hlists' hrecords'
    obtain rfl := hlists'.unique hlists.foldCase
    exact ⟨rfl, hrecords'.eq hrecords (exists_unclosed_foldCase_iff hlists)⟩
  constructor
  · intro tokens st₁ tokens' st₁' h h'
    obtain ⟨htokens, herror⟩ := hsame tokens st₁ tokens' st₁' h h'
    refine ⟨htokens, herror, fun t ht hk => ?_⟩
    exact toNat_lt_of_keyword ((lists_of_tokenize_ok h).1.reads t ht) hk
  · intro hs hs'
    obtain ⟨st₁, ⟨tokens, h⟩ | ⟨hboot, -⟩⟩ := tokenize_run (e := e) hs
    · obtain ⟨st₁', ⟨tokens', h'⟩ | ⟨hboot, -⟩⟩ := tokenize_run (e := e') hs'
      · obtain ⟨rfl, -⟩ := hsame tokens st₁ tokens' st₁' h h'
        exact ⟨tokens, st₁, st₁', h, h'⟩
      · cases hboot
    · cases hboot

/-- A keyword in mixed case, a word with a letter outside ASCII in its place, a quoted name and one
that never ends. -/
theorem tokenize_foldCase_mixed_case :
    let source : Text :=
      ['A', 'n', 'Y', ' ', '\u00e4', 'N', 'Y', '"', 'A', '"', '"', '"', ' ', '"', 'B']
    let tokens : List Token := [⟨.standby .any, none, 0, 3, none⟩,
      ⟨.standby .name, some ['\u00e4', 'N', 'Y'], 4, 7, none⟩,
      ⟨.standby .name, some ['A', '"'], 7, 12, none⟩, ⟨.standby .junk, none, 13, 15, none⟩,
      ⟨.standby .endOfInput, none, 15, 15, none⟩]
    ∃ st₁ st₁', tokenize .initial .standby ⟨source, none, .nothing⟩ .initial = .ok tokens st₁ ∧
      tokenize .initial .standby ⟨source.foldCase, none, .nothing⟩ .initial =
        .ok (tokens.map Token.foldCase) st₁' ∧
      (st₁'.scan 0).progress.error = (st₁.scan 0).progress.error := by
  intro source tokens
  obtain ⟨hsame, hserves⟩ := @tokenize_foldCase .initial .initial ⟨source, none, .nothing⟩
    ⟨source.foldCase, none, .nothing⟩ .initial .initial rfl
  obtain ⟨all, st₁, st₁', h, h'⟩ := hserves trivial trivial
  obtain ⟨-, herror, -⟩ := hsame all st₁ _ st₁' h h'
  have hrun : (match tokenize .initial .standby ⟨source, none, .nothing⟩ .initial with
      | .ok tokens _ => tokens
      | .error _ _ => []) = tokens := by
    decide +kernel
  rw [h] at hrun
  obtain rfl : all = tokens := hrun
  exact ⟨st₁, st₁', h, h', herror⟩

end Store

end MiniLex
