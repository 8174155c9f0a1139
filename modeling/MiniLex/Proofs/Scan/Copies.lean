import MiniLex.Proofs.Scan.Demand
import MiniLex.Proofs.Scan.Division

/-!
# Values that are copied

A scan has its allocator copy the values of some of its tokens: identifiers of
bootstrap texts, and numbers and names of standby lists, but for the wildcard
that is not quoted (`Token.IsCopied`). A pull counts one copy for such a token,
with the length of its value, and none for any other (`usage_of_token`), so a
scan counts what its answers show: `used_eq_copied`. No value is longer than the
text of its token, and so no more characters are copied than the source has:
`copied_length_le`.
-/

namespace MiniLex

/-- The value of the token is a copy. A wildcard that is not quoted begins with a star. -/
def Token.IsCopied (source : Text) (t : Token) : Prop :=
  t.kind = .bootstrap .ident ∨ t.kind = .standby .number ∨
    t.kind = .standby .name ∧ source[t.start]? ≠ some '*'

instance (source : Text) (t : Token) : Decidable (t.IsCopied source) :=
  inferInstanceAs (Decidable (_ ∨ _ ∨ _ ∧ _))

/-- The length of the value of a token, if it has one. -/
def Token.valueLength (t : Token) : Nat := (t.value.getD []).length

/-- What the copy of the value of a token counts, in characters and texts, if there is one. -/
def Token.copyCount (source : Text) (t : Token) : Int × Int :=
  if t.IsCopied source then (t.valueLength, 1) else 0

/-- The tokens among these answers whose values are copies. -/
def copiedTokens (source : Text) (answers : List (Except Failure Answer)) : List Token :=
  answers.filterMap fun
    | .ok (.token t) => if t.IsCopied source then some t else none
    | _ => none

/-- The lengths of the values of tokens in all. -/
def valueLengths (tokens : List Token) : Nat := (tokens.map Token.valueLength).sum

/-- What the copies of the values of tokens count, in characters and texts. -/
def copyCounts (tokens : List Token) : Int × Int := (valueLengths tokens, tokens.length)

theorem valueLengths_append (ts us : List Token) :
    valueLengths (ts ++ us) = valueLengths ts + valueLengths us := by
  simp [valueLengths]

theorem copyCounts_append (ts us : List Token) :
    copyCounts (ts ++ us) = copyCounts ts + copyCounts us := by
  simp [copyCounts, valueLengths_append]

theorem copiedTokens_cons (source : Text) (answer : Except Failure Answer)
    (answers : List (Except Failure Answer)) :
    copiedTokens source (answer :: answers) =
      copiedTokens source [answer] ++ copiedTokens source answers := by
  rw [copiedTokens, ← List.singleton_append, List.filterMap_append]
  rfl

theorem copiedTokens_token (source : Text) (t : Token) :
    copiedTokens source [.ok (.token t)] = if t.IsCopied source then [t] else [] := by
  rw [copiedTokens, List.filterMap_cons]
  by_cases h : t.IsCopied source <;> simp [h]

section Tokens

variable {source : Text} {value : Option Text} {i j : Nat} {line : Option Nat}

theorem isCopied_bootstrap {k : Bootstrap.Kind} :
    Token.IsCopied source ⟨.bootstrap k, value, i, j, line⟩ ↔ k = .ident := by
  simp [Token.IsCopied]

theorem isCopied_standby {k : Standby.Kind} :
    Token.IsCopied source ⟨.standby k, value, i, j, line⟩ ↔
      k = .number ∨ k = .name ∧ source[i]? ≠ some '*' := by
  simp [Token.IsCopied]

end Tokens

theorem Doubled.Body.length_text_le (q : Char) (b : Doubled.Body) :
    (b.text q).length ≤ b.width := by
  induction b with
  | unclosed run => exact Nat.le_refl _
  | closed run => exact Nat.le_succ _
  | pair run rest ih =>
    rw [text, width, List.length_append, List.length_cons]
    omega

/-! ## Lexemes -/

namespace Bootstrap

theorem Kind.ofWord_cases (w : Text) :
    Kind.ofWord w = .nullValue ∨ (∃ k, Kind.ofWord w = .keyword k) ∨ Kind.ofWord w = .ident := by
  rw [Kind.ofWord]
  split
  · exact .inl rfl
  · split
    · exact .inr (.inl ⟨_, rfl⟩)
    · exact .inr (.inr rfl)

theorem Kind.ne_ident_of_mark {c : Char} {k : Kind} (h : Kind.ofMark? c = some k) : k ≠ .ident := by
  rintro rfl
  simp only [Kind.ofMark?] at h
  split_ifs at h <;> cases h

/-- Identifiers are the lexemes whose values are copied. -/
theorem lexeme_of_read {t : Text} {l : Lexeme} (h : Reading.read t = .lexeme l) :
    ∃ k, l.kind = .bootstrap k ∧ (k = .ident ↔ ∃ text, l.payload = .copied text) ∧
      (l.payload.value.getD []).length ≤ l.width := by
  cases t with
  | nil => cases h
  | cons c cs =>
    rw [Reading.read] at h
    split at h
    · obtain rfl := Reading.lexeme.inj h
      generalize c :: cs.takeWhile isWordChar = w
      refine ⟨Kind.ofWord w, rfl, ?_⟩
      rw [wordLexeme]
      rcases Kind.ofWord_cases w with hw | ⟨k, hw⟩ | hw <;> rw [hw] <;>
        simp [wordPayload, Payload.value]
    split at h
    · split at h
      · rename_i body _
        obtain rfl := Reading.lexeme.inj h
        have hle := body.length_text_le apostrophe
        refine ⟨.ident, rfl, ?_, Nat.le_succ_of_le hle⟩
        simp [stringLexeme]
      · cases h
    · split at h
      · rename_i k hk
        obtain rfl := Reading.lexeme.inj h
        refine ⟨k, rfl, ?_, Nat.zero_le _⟩
        simp [Kind.ne_ident_of_mark hk]
      · cases h

end Bootstrap

namespace Standby

theorem Kind.ofKeyword?_cases {w : Text} {k : Kind} (h : Kind.ofKeyword? w = some k) :
    k = .any ∨ k = .first := by
  simp only [Kind.ofKeyword?] at h
  split_ifs at h
  · exact .inl (Option.some.inj h).symm
  · exact .inr (Option.some.inj h).symm

theorem Kind.ofMark?_cases {c : Char} {k : Kind} (h : Kind.ofMark? c = some k) :
    k = .comma ∨ k = .leftParen ∨ k = .rightParen := by
  simp only [Kind.ofMark?] at h
  split_ifs at h
  · exact .inl (Option.some.inj h).symm
  · exact .inr (.inl (Option.some.inj h).symm)
  · exact .inr (.inr (Option.some.inj h).symm)

/-- Numbers are the lexemes whose values are copied, and names that begin with no star. -/
theorem lexeme_of_read {t : Text} {l : Lexeme} (h : Reading.read t = .lexeme l) :
    ∃ k, l.kind = .standby k ∧
      (k = .number ∨ k = .name ∧ t.head? ≠ some '*' ↔ ∃ text, l.payload = .copied text) ∧
      (l.payload.value.getD []).length ≤ l.width := by
  cases t with
  | nil => cases h
  | cons c cs =>
    rw [Reading.read] at h
    rw [List.head?_cons]
    split at h
    · cases h
    split at h
    · rename_i hstart
      obtain rfl := Reading.lexeme.inj h
      have hstar : c ≠ '*' := by
        rintro rfl
        exact absurd hstart (by decide)
      generalize c :: cs.takeWhile isNameChar = w
      rw [wordLexeme]
      cases hk : Kind.ofKeyword? w with
      | some k => rcases Kind.ofKeyword?_cases hk with rfl | rfl <;> simp [Payload.value]
      | none => simp [Payload.value, hstar]
    split at h
    · obtain rfl := Reading.lexeme.inj h
      simp [Payload.value]
    · obtain rfl := Reading.lexeme.inj h
      rw [charLexeme]
      split
      · rename_i hstar
        simp [Payload.value, wildcard, hstar]
      · cases hk : Kind.ofMark? c with
        | some k => rcases Kind.ofMark?_cases hk with rfl | rfl | rfl <;> simp [Payload.value]
        | none => simp [Payload.value]

end Standby

/-! ## Pulls -/

namespace Scanner

variable {s : Scanner} {p q : Progress} {t : Token}

/-- What storing a value counts, if it is a copy and if it is not. -/
theorem usage_of_payload {x : Payload} {P : Prop} [Decidable P]
    (h : P ↔ ∃ text, x = .copied text) :
    x.usage.2 = if P then (((x.value.getD []).length : Int), (1 : Int)) else 0 := by
  cases x with
  | absent | fixed text =>
    rw [if_neg (by simp [h])]
    rfl
  | copied text =>
    rw [if_pos (by simp [h])]
    rfl

/-- This has been counted for a token: the copy of its value, if that is a copy. The value is then
there, and it is not longer than the text of the token. -/
structure CopiesFor (source : Text) (t : Token) (v : Usage) : Prop where
  counted : v.2 = t.copyCount source
  isSome : t.IsCopied source → t.value.isSome = true
  start_add_le : t.start + t.valueLength ≤ t.stop

theorem copiesFor_endToken {kind : TokenKind} (hk : kind.isEnd = true) (source : Text) :
    CopiesFor source (s.endToken kind p) 0 := by
  have hnot : ¬(s.endToken kind p).IsCopied source := by
    rintro (h | h | ⟨h, -⟩) <;> rw [show kind = _ from h] at hk <;> cases hk
  exact ⟨(if_neg hnot).symm, fun h => absurd h hnot, Nat.le_refl _⟩

theorem copiesFor_lexemeToken {source : Text} {l : Lexeme}
    (hiff : (s.lexemeToken l p).IsCopied source ↔ ∃ text, l.payload = .copied text)
    (hle : (l.payload.value.getD []).length ≤ l.width) :
    CopiesFor source (s.lexemeToken l p) l.payload.usage := by
  refine ⟨usage_of_payload hiff, fun h => ?_, Nat.add_le_add_left hle _⟩
  obtain ⟨text, htext⟩ := hiff.mp h
  rw [lexemeToken, htext]
  rfl

/-- A quoted name that ends is a name, and begins with a quote. -/
theorem copiesFor_bodyToken {source : Text} {body : Doubled.Body} {start : Nat}
    (hstart : source[start]? ≠ some '*') :
    CopiesFor source (bodyToken body.isClosed (body.text Standby.doubleQuote) start
      (start + 1 + body.width)) (quotedUsage body) := by
  have hle := body.length_text_le Standby.doubleQuote
  rw [quotedUsage, bodyToken]
  cases body.isClosed with
  | true =>
    simp only [↓reduceIte]
    refine ⟨?_, fun _ => rfl, ?_⟩
    · rw [Token.copyCount, if_pos (isCopied_standby.mpr (.inr ⟨rfl, hstart⟩))]
      simp [Memory.reserved, Usage.reserve, Usage.copy, Token.valueLength]
    · dsimp only [Token.valueLength, Option.getD_some]
      omega
  | false =>
    simp only [Bool.false_eq_true, ↓reduceIte]
    have hnot : ¬Token.IsCopied source
        ⟨.standby .junk, none, start, start + 1 + body.width, none⟩ := by
      simp [isCopied_standby]
    refine ⟨?_, fun h => absurd h hnot, ?_⟩
    · rw [Token.copyCount, if_neg hnot]
      simp [Memory.reserved, Usage.reserve]
    · dsimp only [Token.valueLength, Option.getD_none, List.length_nil]
      omega

/-- A pull counts one copy for its token, with the length of its value, if the value is a copy, and
none if it is not. -/
theorem copiesFor_of_outcome (hout : s.outcome p = ⟨.ok t, q⟩) :
    CopiesFor s.source t (s.usage p) := by
  rw [outcome] at hout
  split at hout
  · cases hout
  rename_i ho
  rw [usage, if_neg ho]
  rw [readOutcome] at hout
  cases hl : s.rules with
  | none =>
    simp only [hl] at hout
    cases hout
  | some l =>
    cases l with
    | bootstrap =>
      simp only [hl, bootstrapOutcome] at hout ⊢
      cases hread : Bootstrap.Reading.read (s.source.drop (s.afterGap p).pos) with
      | atEnd =>
        simp only [hread] at hout ⊢
        obtain rfl := Except.ok.inj (Outcome.mk.inj hout).1
        exact copiesFor_endToken rfl s.source
      | illegal c =>
        simp only [hread] at hout
        cases hout
      | lexeme l =>
        simp only [hread] at hout ⊢
        obtain rfl := Except.ok.inj (Outcome.mk.inj hout).1
        obtain ⟨k, hk, hiff, hle⟩ := Bootstrap.lexeme_of_read hread
        refine copiesFor_lexemeToken ?_ hle
        rw [lexemeToken, hk, isCopied_bootstrap]
        exact hiff
    | standby =>
      simp only [hl, standbyOutcome] at hout ⊢
      cases hread : Standby.Reading.read (s.source.drop (s.afterBlanks p).pos) with
      | atEnd =>
        simp only [hread] at hout ⊢
        obtain rfl := Except.ok.inj (Outcome.mk.inj hout).1
        exact copiesFor_endToken rfl s.source
      | lexeme l =>
        simp only [hread] at hout ⊢
        obtain rfl := Except.ok.inj (Outcome.mk.inj hout).1
        obtain ⟨k, hk, hiff, hle⟩ := Standby.lexeme_of_read hread
        refine copiesFor_lexemeToken ?_ hle
        rw [lexemeToken, hk, isCopied_standby]
        rwa [List.head?_drop] at hiff
      | quoted body =>
        simp only [hread] at hout ⊢
        obtain rfl := Except.ok.inj (Outcome.mk.inj hout).1
        obtain ⟨rest, hd, -⟩ := Standby.exists_quote_of_quoted hread
        refine copiesFor_bodyToken ?_
        rw [Text.getElem?_of_drop_eq_cons hd]
        decide

/-! ## Demands, one after the other -/

theorem rules_of_outcome_ok (hout : s.outcome p = ⟨.ok t, q⟩) :
    p.closed = false ∧ ∃ l, s.rules = some l := by
  rw [outcome] at hout
  split at hout
  · cases hout
  rename_i ho
  refine ⟨Bool.eq_false_iff.mpr ho, Option.ne_none_iff_exists'.mp fun hl => ?_⟩
  rw [readOutcome, hl] at hout
  cases hout

/-- A pull that fails moves the cursor over a gap at most. -/
theorem pos_of_outcome_error {failure : Failure} (ho : (s.outcome p).answer = .error failure)
    (hp : p.pos ≤ s.source.length) :
    p.pos ≤ (s.outcome p).progress.pos ∧ (s.outcome p).progress.pos ≤ s.source.length := by
  rcases of_outcome_error ho with hc | ⟨hc, hl | ⟨hl, c, hread⟩⟩
  · rw [outcome_of_closed hc]
    exact ⟨Nat.le_refl _, hp⟩
  · simp only [outcome, hc, readOutcome, hl]
    exact ⟨Nat.le_refl _, hp⟩
  · simp only [outcome, hc, readOutcome, hl, bootstrapOutcome, hread]
    exact ⟨Nat.le_add_right _ _, Bootstrap.gapEnd_le_length hp⟩

/-- A demand is a pull that returns a token, or it copies nothing. -/
theorem effect_cases (s : Scanner) (p : Progress) (d : Demand) :
    (∃ t q, s.outcome p = ⟨.ok t, q⟩ ∧ s.effect p d = ⟨.ok (.token t), q, s.usage p⟩) ∨
      let e := s.effect p d
      copiedTokens s.source [e.answer] = [] ∧ e.usage = 0 ∧
        (p.pos ≤ s.source.length → p.pos ≤ e.progress.pos ∧ e.progress.pos ≤ s.source.length) := by
  cases d with
  | recordError | noteError => exact .inr ⟨rfl, rfl, fun hp => ⟨Nat.le_refl _, hp⟩⟩
  | close | finish =>
    have hpos := p.shut_pos
    exact .inr ⟨rfl, rfl, fun hp => ⟨Nat.le_of_eq hpos.symm, hpos ▸ hp⟩⟩
  | pull =>
    cases ho : (s.outcome p).answer with
    | ok t =>
      have hout : s.outcome p = ⟨.ok t, (s.outcome p).progress⟩ := by rw [← ho]
      exact .inl ⟨t, _, hout, effect_pull hout⟩
    | error failure =>
      refine .inr ⟨?_, usage_of_failure ho, pos_of_outcome_error ho⟩
      rw [effect, ho]
      rfl

/-- A demand counts the copy of the value of a token that it answers, and no other. -/
theorem usage_of_effect (s : Scanner) (p : Progress) (d : Demand) :
    (s.effect p d).usage.2 = copyCounts (copiedTokens s.source [(s.effect p d).answer]) := by
  rcases s.effect_cases p d with ⟨t, q, hout, heffect⟩ | ⟨hnone, husage, -⟩
  · rw [heffect, (copiesFor_of_outcome hout).counted, Token.copyCount, copiedTokens_token]
    split
    · simp [copyCounts, valueLengths]
    · rfl
  · rw [hnone, husage]
    rfl

/-- Demands count the copies of the values of the tokens that they answer, and no others. -/
theorem used_eq_copied (s : Scanner) (p : Progress) (ds : List Demand) :
    (s.used p ds).2 = copyCounts (copiedTokens s.source (s.answers p ds)) := by
  induction ds generalizing p with
  | nil => rfl
  | cons d ds ih =>
    rw [used, answers, Prod.snd_add, usage_of_effect, ih,
      copiedTokens_cons s.source (s.effect p d).answer (s.answers (s.effect p d).progress ds),
      copyCounts_append]

/-- The value of every token that has it copied is there. -/
theorem isSome_of_mem_copiedTokens (s : Scanner) (p : Progress) (ds : List Demand) :
    ∀ t ∈ copiedTokens s.source (s.answers p ds), t.value.isSome = true := by
  induction ds generalizing p with
  | nil => nofun
  | cons d ds ih =>
    rw [answers, copiedTokens_cons, List.forall_mem_append]
    refine ⟨fun t ht => ?_, ih _⟩
    rcases s.effect_cases p d with ⟨u, q, hout, heffect⟩ | ⟨hnone, -⟩
    · rw [heffect, copiedTokens_token] at ht
      split at ht
      · rename_i hcopied
        rw [List.mem_singleton.mp ht]
        exact (copiesFor_of_outcome hout).isSome hcopied
      · cases ht
    · rw [hnone] at ht
      cases ht

/-- A demand that copies characters moves the cursor over as many at least. -/
theorem valueLengths_effect_le (hp : p.pos ≤ s.source.length) (d : Demand) :
    let e := s.effect p d
    p.pos + valueLengths (copiedTokens s.source [e.answer]) ≤ e.progress.pos ∧
      e.progress.pos ≤ s.source.length := by
  rcases s.effect_cases p d with ⟨t, q, hout, heffect⟩ | ⟨hnone, -, hpos⟩
  · obtain ⟨hopen, l, hl⟩ := rules_of_outcome_ok hout
    obtain ⟨hgap, hin, hpos, -⟩ := gap_of_outcome hl hopen hp hout
    have hvalue := (copiesFor_of_outcome hout).start_add_le
    have hle := l.le_of_gap _ _ _ hgap
    have hstop := hin.stop_le
    have hcopied : valueLengths (copiedTokens s.source [.ok (.token t)]) ≤ t.valueLength := by
      rw [copiedTokens_token]
      split
      · simp [valueLengths]
      · exact Nat.zero_le _
    rw [heffect]
    dsimp only
    omega
  · intro e
    rw [hnone]
    exact hpos hp

/-- A scan copies no more characters than its source has from the cursor on. -/
theorem valueLengths_answers_le (hp : p.pos ≤ s.source.length) (ds : List Demand) :
    p.pos + valueLengths (copiedTokens s.source (s.answers p ds)) ≤ s.source.length := by
  induction ds generalizing p with
  | nil => exact hp
  | cons d ds ih =>
    obtain ⟨hcopied, hpos⟩ := valueLengths_effect_le hp d
    have hrest := ih hpos
    rw [answers, copiedTokens_cons, valueLengths_append]
    omega

end Scanner

end MiniLex
