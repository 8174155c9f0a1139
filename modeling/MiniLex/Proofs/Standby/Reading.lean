import MiniLex.Proofs.Standby.Grammar
import MiniLex.Proofs.Text.Division

/-!
# Standby lists are read by their rules

`Reading.read` looks at the first character of a text and then at what follows
it, one rule after the other. The token that it makes of what stands at an
offset (`tokenAt`) is the one that the rules of standby lists give there, and
they give no other: `reads_iff`.
-/

namespace MiniLex.Standby

variable {source : Text} {p stop : Nat} {c : Char} {w : Text}

/-- The token that reading makes of what stands at an offset. -/
def tokenAt (source : Text) (p : Nat) : Token :=
  match Reading.read (source.drop p) with
  | .atEnd => ⟨.standby .endOfInput, none, p, p, none⟩
  | .lexeme l => ⟨l.kind, l.payload.value, p, p + l.width, none⟩
  | .quoted body =>
    if body.isClosed then
      ⟨.standby .name, some (body.text doubleQuote), p, p + 1 + body.width, none⟩
    else ⟨.standby .junk, none, p, p + 1 + body.width, none⟩

/-! ## What is read, by the first character -/

theorem NameStart.ne_quote (h : NameStart c) : c ≠ doubleQuote := by
  intro he
  rw [← isNameStart_iff, he] at h
  exact absurd h (by decide)

theorem Digit.ne_quote (h : Digit c) : c ≠ doubleQuote := by
  intro he
  rw [← isDigit_iff, he] at h
  exact absurd h (by decide)

theorem Digit.not_nameStart (h : Digit c) : ¬NameStart c := by
  intro hs
  have hle : c.val.toNat ≤ 57 := UInt32.le_iff_toNat_le.mp h.2
  have hge : 48 ≤ c.val.toNat := UInt32.le_iff_toNat_le.mp h.1
  rcases hs with ⟨ha, -⟩ | ⟨ha, -⟩ | rfl | hc
  · have ha' : 65 ≤ c.val.toNat := UInt32.le_iff_toNat_le.mp ha
    omega
  · have ha' : 97 ≤ c.val.toNat := UInt32.le_iff_toNat_le.mp ha
    omega
  · exact absurd hle (by decide)
  · have hc' : 128 ≤ c.val.toNat := hc
    omega

theorem read_word (hc : source[p]? = some c) (hs : NameStart c) :
    Reading.read (source.drop p) = .lexeme (wordLexeme ((source.drop p).takeWhile isNameChar)) := by
  have hchar : isNameChar c = true := (isNameChar_iff c).mpr (.inl hs)
  rw [Text.drop_eq_cons hc, Reading.read, if_neg hs.ne_quote, if_pos ((isNameStart_iff c).mpr hs),
    List.takeWhile_cons_of_pos hchar]

theorem read_number (hc : source[p]? = some c) (hd : Digit c) :
    Reading.read (source.drop p) =
      .lexeme ⟨.standby .number, .copied ((source.drop p).takeWhile Char.isDigit),
        ((source.drop p).takeWhile Char.isDigit).length⟩ := by
  have hdigit : c.isDigit = true := (isDigit_iff c).mpr hd
  have hs : ¬isNameStart c = true := fun h => hd.not_nameStart ((isNameStart_iff c).mp h)
  rw [Text.drop_eq_cons hc, Reading.read, if_neg hd.ne_quote, if_neg hs, if_pos hdigit,
    List.takeWhile_cons_of_pos hdigit]

theorem read_char (hc : source[p]? = some c) (hs : ¬NameStart c) (hd : ¬Digit c)
    (hq : c ≠ doubleQuote) :
    Reading.read (source.drop p) = .lexeme (charLexeme c) := by
  rw [Text.drop_eq_cons hc, Reading.read, if_neg hq, if_neg (mt (isNameStart_iff c).mp hs),
    if_neg (mt (isDigit_iff c).mp hd)]

theorem read_quote {rest : Text} (h : source.drop p = '"' :: rest) :
    Reading.read (source.drop p) = .quoted (Doubled.Body.read '"' rest) := by
  rw [h, Reading.read]
  exact if_pos rfl

theorem exists_quote_of_quoted {body : Doubled.Body}
    (h : Reading.read (source.drop p) = .quoted body) :
    ∃ rest, source.drop p = '"' :: rest ∧ body = Doubled.Body.read '"' rest := by
  cases hd : source.drop p with
  | nil => simp [hd, Reading.read] at h
  | cons c rest =>
    rw [hd, Reading.read] at h
    split at h
    · rename_i hq
      exact ⟨rest, by rw [hq]; rfl, (Reading.quoted.inj h).symm⟩
    split at h
    · cases h
    split at h <;> cases h

/-! ## Lexemes of words -/

theorem wordLexeme_any (h : Text.SameWord w ['a', 'n', 'y']) :
    wordLexeme w = ⟨.standby .any, .absent, w.length⟩ := by
  have hfold : w.foldCase = "any".toList := (Text.foldCase_eq_iff (by decide)).mpr h
  rw [wordLexeme, Kind.ofKeyword?, if_pos hfold]

theorem wordLexeme_first (h : Text.SameWord w ['f', 'i', 'r', 's', 't']) :
    wordLexeme w = ⟨.standby .first, .absent, w.length⟩ := by
  have hfold : w.foldCase = "first".toList := (Text.foldCase_eq_iff (by decide)).mpr h
  rw [wordLexeme, Kind.ofKeyword?, hfold, if_neg (by decide), if_pos rfl]

theorem wordLexeme_name (ha : ¬Text.SameWord w ['a', 'n', 'y'])
    (hf : ¬Text.SameWord w ['f', 'i', 'r', 's', 't']) :
    wordLexeme w = ⟨.standby .name, .copied w, w.length⟩ := by
  have hany : ¬w.foldCase = "any".toList := mt (Text.foldCase_eq_iff (by decide)).mp ha
  have hfirst : ¬w.foldCase = "first".toList := mt (Text.foldCase_eq_iff (by decide)).mp hf
  rw [wordLexeme, Kind.ofKeyword?, if_neg hany, if_neg hfirst]

/-! ## The rules give what is read -/

theorem tokenAt_word (hc : source[p]? = some c) (hs : NameStart c)
    (hr : source.LongestRun NameChar p stop) {kind : Kind} {payload : Payload}
    (hw : wordLexeme (source.slice p stop) =
      ⟨.standby kind, payload, (source.slice p stop).length⟩) :
    tokenAt source p = ⟨.standby kind, payload.value, p, stop, none⟩ := by
  have hread := read_word hc hs
  rw [← hr.slice_eq isNameChar_iff, hw] at hread
  rw [tokenAt, hread]
  simp only [hr.add_length]

theorem tokenAt_number (hc : source[p]? = some c) (hd : Digit c)
    (hr : source.LongestRun Digit p stop) :
    tokenAt source p = ⟨.standby .number, some (source.slice p stop), p, stop, none⟩ := by
  have hread := read_number hc hd
  rw [← hr.slice_eq isDigit_iff] at hread
  rw [tokenAt, hread]
  simp only [hr.add_length, Payload.value]

/-- The token of a character that begins no word, number or quoted name. -/
theorem tokenAt_char (hc : source[p]? = some c) (hs : ¬NameStart c) (hd : ¬Digit c)
    (hq : c ≠ doubleQuote) :
    tokenAt source p =
      ⟨(charLexeme c).kind, (charLexeme c).payload.value, p, p + (charLexeme c).width, none⟩ := by
  rw [tokenAt, read_char hc hs hd hq]

theorem tokenAt_quoted {inside value rest : Text}
    (h : source.drop p = '"' :: (inside ++ '"' :: rest)) (hd : Doubled.Decodes '"' inside value)
    (hr : rest.head? ≠ some '"') :
    tokenAt source p = ⟨.standby .name, some value, p, p + (inside.length + 2), none⟩ := by
  obtain ⟨hclosed, htext, hwidth⟩ := Doubled.Body.read_append_of_decodes hd hr
  have hstop : p + 1 + (inside.length + 1) = p + (inside.length + 2) := by omega
  rw [tokenAt, read_quote h]
  simp only [hclosed, ↓reduceIte, doubleQuote, htext, hwidth, hstop]

theorem tokenAt_unclosed {inside value : Text} (h : source.drop p = '"' :: inside)
    (hd : Doubled.Decodes '"' inside value) :
    tokenAt source p = ⟨.standby .junk, none, p, source.length, none⟩ := by
  obtain ⟨hclosed, -, hwidth⟩ := Doubled.Body.read_of_decodes hd
  have hlen := congrArg List.length h
  rw [List.length_drop, List.length_cons] at hlen
  have hstop : p + 1 + inside.length = source.length := by omega
  rw [tokenAt, read_quote h]
  simp only [hclosed, hwidth, Bool.false_eq_true, ↓reduceIte, hstop]

/-- The rules give no other token than the one that is read. -/
theorem Reads.eq_tokenAt {token : Token} (h : Reads source p token) : token = tokenAt source p := by
  have hmark : ∀ {c}, c ∈ ['*', ',', '(', ')'] → ¬NameStart c ∧ ¬Digit c ∧ c ≠ doubleQuote := by
    intro c hc
    simp only [List.mem_cons, List.not_mem_nil, or_false] at hc
    rw [← isNameStart_iff, ← isDigit_iff]
    rcases hc with rfl | rfl | rfl | rfl <;> decide
  cases h with
  | atEnd hp => rw [tokenAt, hp, List.drop_length]; rfl
  | any hc hs hr hw => rw [tokenAt_word hc hs hr (wordLexeme_any hw)]; rfl
  | first hc hs hr hw => rw [tokenAt_word hc hs hr (wordLexeme_first hw)]; rfl
  | name hc hs hr ha hf => rw [tokenAt_word hc hs hr (wordLexeme_name ha hf)]; rfl
  | number hc hd hr => rw [tokenAt_number hc hd hr]
  | star hc =>
    obtain ⟨hs, hd, hq⟩ := hmark (c := '*') (by decide)
    rw [tokenAt_char hc hs hd hq]; rfl
  | comma hc =>
    obtain ⟨hs, hd, hq⟩ := hmark (c := ',') (by decide)
    rw [tokenAt_char hc hs hd hq]; rfl
  | leftParen hc =>
    obtain ⟨hs, hd, hq⟩ := hmark (c := '(') (by decide)
    rw [tokenAt_char hc hs hd hq]; rfl
  | rightParen hc =>
    obtain ⟨hs, hd, hq⟩ := hmark (c := ')') (by decide)
    rw [tokenAt_char hc hs hd hq]; rfl
  | quoted hd hdec hr => rw [tokenAt_quoted hd hdec hr]
  | unclosed hd hdec => rw [tokenAt_unclosed hd hdec]
  | junk hc hs hd hn =>
    simp only [List.mem_cons, List.not_mem_nil, or_false, not_or] at hn
    obtain ⟨hstar, hcomma, hleft, hright, hq⟩ := hn
    rw [tokenAt_char hc hs hd hq, charLexeme, if_neg hstar, Kind.ofMark?, if_neg hcomma,
      if_neg hleft, if_neg hright]
    rfl

theorem reads_quote {rest : Text} (h : source.drop p = '"' :: rest) :
    Reads source p (tokenAt source p) := by
  cases hclosed : (Doubled.Body.read '"' rest).isClosed with
  | true =>
    obtain ⟨inside, tail, hrest, htail, hdec, -⟩ := Doubled.Body.exists_decodes_of_isClosed hclosed
    rw [hrest] at h
    rw [tokenAt_quoted h hdec htail]
    exact .quoted h hdec htail
  | false =>
    obtain ⟨hdec, -⟩ := Doubled.Body.decodes_of_isClosed_eq_false hclosed
    rw [tokenAt_unclosed h hdec]
    exact .unclosed h hdec

theorem reads_char (hc : source[p]? = some c) (hs : ¬NameStart c) (hd : ¬Digit c)
    (hq : c ≠ doubleQuote) :
    Reads source p
      ⟨(charLexeme c).kind, (charLexeme c).payload.value, p, p + (charLexeme c).width, none⟩ := by
  by_cases hstar : c = '*'
  · subst hstar; exact .star hc
  by_cases hcomma : c = ','
  · subst hcomma; exact .comma hc
  by_cases hleft : c = '('
  · subst hleft; exact .leftParen hc
  by_cases hright : c = ')'
  · subst hright; exact .rightParen hc
  · rw [charLexeme, if_neg hstar, Kind.ofMark?, if_neg hcomma, if_neg hleft, if_neg hright]
    exact .junk hc hs hd (by simp [hstar, hcomma, hleft, hright, show c ≠ '"' from hq])

/-- The rules give the token that is read. -/
theorem reads_tokenAt (hp : p ≤ source.length) : Reads source p (tokenAt source p) := by
  cases hd : source.drop p with
  | nil =>
    have hlen : p = source.length := Nat.le_antisymm hp (List.drop_eq_nil_iff.mp hd)
    rw [tokenAt, hd]
    exact .atEnd hlen
  | cons c rest =>
    have hc := Text.getElem?_of_drop_eq_cons hd
    by_cases hq : c = doubleQuote
    · exact reads_quote (hq ▸ hd)
    by_cases hs : NameStart c
    · have hr := Text.longestRun_takeWhile isNameChar_iff hp
      generalize p + ((source.drop p).takeWhile isNameChar).length = stop at hr
      by_cases ha : Text.SameWord (source.slice p stop) ['a', 'n', 'y']
      · rw [tokenAt_word hc hs hr (wordLexeme_any ha)]
        exact .any hc hs hr ha
      by_cases hf : Text.SameWord (source.slice p stop) ['f', 'i', 'r', 's', 't']
      · rw [tokenAt_word hc hs hr (wordLexeme_first hf)]
        exact .first hc hs hr hf
      · rw [tokenAt_word hc hs hr (wordLexeme_name ha hf)]
        exact .name hc hs hr ha hf
    by_cases hdig : Digit c
    · have hr := Text.longestRun_takeWhile isDigit_iff hp
      rw [tokenAt_number hc hdig hr]
      exact .number hc hdig hr
    · rw [tokenAt_char hc hs hdig hq]
      exact reads_char hc hs hdig hq

/-- The token at an offset is the one that is read there. -/
theorem reads_iff (hp : p ≤ source.length) {token : Token} :
    Reads source p token ↔ token = tokenAt source p :=
  ⟨Reads.eq_tokenAt, fun he => he ▸ reads_tokenAt hp⟩

/-! ## Where tokens stand -/

theorem Reads.standsIn {token : Token} (h : Reads source p token) :
    token.start = p ∧ token.StandsIn source := by
  -- All tokens but the end token take at least the character that stands at the offset.
  have hstands : ∀ {kind value stop}, kind ≠ .endOfInput → p < stop → stop ≤ source.length →
      (⟨.standby kind, value, p, stop, none⟩ : Token).StandsIn source := by
    intro kind value stop hk hlt hle
    exact ⟨Nat.le_of_lt hlt, hle, fun _ => hlt, fun he => absurd (beq_iff_eq.mp he) hk⟩
  have hone : ∀ {c : Char}, source[p]? = some c → p < p + 1 ∧ p + 1 ≤ source.length :=
    fun hc => ⟨Nat.lt_succ_self p, (List.getElem?_eq_some_iff.mp hc).1⟩
  have hrun : ∀ {c : Char} {P : Char → Prop} {stop : Nat}, source[p]? = some c → P c →
      source.LongestRun P p stop → p < stop ∧ stop ≤ source.length := by
    intro c P stop hc hP hr
    refine ⟨Nat.lt_of_le_of_ne hr.le ?_, hr.le_length⟩
    intro he
    exact hr.next c (he ▸ hc) hP
  cases h with
  | atEnd hp =>
    have hle := Nat.le_of_eq hp
    exact ⟨rfl, Nat.le_refl _, hle, by simp [TokenKind.isEnd], fun _ => hp⟩
  | any hc hs hr _ | first hc hs hr _ | name hc hs hr _ _ =>
    obtain ⟨hlt, hle⟩ := hrun hc (.inl hs) hr
    exact ⟨rfl, hstands (by decide) hlt hle⟩
  | number hc hd hr =>
    obtain ⟨hlt, hle⟩ := hrun hc hd hr
    exact ⟨rfl, hstands (by decide) hlt hle⟩
  | star hc | comma hc | leftParen hc | rightParen hc | junk hc _ _ _ =>
    obtain ⟨hlt, hle⟩ := hone hc
    exact ⟨rfl, hstands (by decide) hlt hle⟩
  | @quoted inside value rest hd _ _ =>
    have hsplit : source.drop p = ('"' :: (inside ++ ['"'])) ++ rest := by rw [hd]; simp
    have hle := Text.length_of_drop_eq_append hsplit (by simp)
    rw [List.length_cons, List.length_append, List.length_singleton] at hle
    exact ⟨rfl, hstands (by decide) (by omega) (by omega)⟩
  | unclosed hd _ =>
    have hlt := Text.lt_length_of_drop_eq_cons hd
    exact ⟨rfl, hstands (by decide) hlt (Nat.le_refl _)⟩

end MiniLex.Standby
