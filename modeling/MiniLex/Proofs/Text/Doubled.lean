import Mathlib.Algebra.Group.Nat.Even
import MiniLex.Text.Doubled

/-!
# What a delimited text stands for

The rules of doubled delimiters, character by character (`Decodes`), and how
the bodies of `Body.read` keep to them:

* `decodes_encode`, `Decodes.eq_encode`: the inside of a text is its encoding;
* `Decodes.append`, `Decodes.getElem?_of_lt`: insides that go on behind a
  delimiter, which is then the first half of a pair;
* `count_enclose_of_ne`: enclosing a text adds delimiters only;
* `decodes_of_isClosed_eq_false`, `exists_decodes_of_isClosed`: what a text
  decodes to that never closes, and one that closes;
* `read_of_decodes`, `read_append_of_decodes`: no text is read in another way;
* `exists_decodes_of_longest?`, `le_width_of_decodes`: `Body.longest?` is the
  longest first part of a text that closes.
-/

namespace MiniLex.Doubled

/-- The inside of a delimited text, and the text it stands for: a doubled delimiter stands for one
delimiter, and any other character for itself. -/
inductive Decodes (q : Char) : Text → Text → Prop
  | nil : Decodes q [] []
  | pair {inside text : Text} : Decodes q inside text → Decodes q (q :: q :: inside) (q :: text)
  | char {c : Char} {inside text : Text} :
    c ≠ q → Decodes q inside text → Decodes q (c :: inside) (c :: text)

/-! ## Encoding is the only way to follow the rules -/

/-- A text with each delimiter written twice is an inside that stands for it. -/
theorem decodes_encode (q : Char) (text : Text) : Decodes q (encode q text) text := by
  induction text with
  | nil => exact .nil
  | cons c text ih =>
    rw [encode]
    split
    · rename_i hc
      rw [hc]
      exact .pair ih
    · rename_i hc
      exact .char hc ih

/-- No other inside stands for a text. -/
theorem Decodes.eq_encode {q : Char} {inside text : Text} (h : Decodes q inside text) :
    inside = encode q text := by
  induction h with
  | nil => rfl
  | pair _ ih => rw [encode, if_pos rfl, ← ih]
  | char hne _ ih => rw [encode, if_neg hne, ← ih]

/-- A text without delimiters stands for itself. -/
theorem decodes_of_not_mem {q : Char} {text : Text} (h : q ∉ text) : Decodes q text text := by
  induction text with
  | nil => exact .nil
  | cons c text ih =>
    rw [List.mem_cons, not_or] at h
    exact .char (Ne.symm h.1) (ih h.2)

/-- Delimiters stand inside in pairs. -/
theorem Decodes.even_count {q : Char} {inside text : Text} (h : Decodes q inside text) :
    Even (inside.count q) := by
  induction h with
  | nil => exact Even.zero
  | pair _ ih =>
    rw [List.count_cons_self, List.count_cons_self, Nat.add_assoc]
    exact ih.add ⟨1, rfl⟩
  | char hne _ ih => rwa [List.count_cons_of_ne hne]

/-- Enclosing a text adds delimiters only. -/
theorem count_enclose_of_ne {q c : Char} (h : c ≠ q) (text : Text) :
    (enclose q text).count c = text.count c := by
  have hencode : (encode q text).count c = text.count c := by
    induction text with
    | nil => rfl
    | cons d text ih =>
      rw [encode]
      split
      · rename_i hd
        rw [List.count_cons_of_ne h.symm, List.count_cons_of_ne h.symm, ih,
          List.count_cons_of_ne (hd ▸ h.symm)]
      · rw [List.count_cons, List.count_cons, ih]
  rw [enclose, List.count_cons_of_ne h.symm, List.count_append, hencode,
    List.count_cons_of_ne h.symm, List.count_nil, Nat.add_zero]

/-! ## Insides that go on behind a delimiter -/

/-- Two insides with a doubled delimiter between them are one. -/
theorem Decodes.append {q : Char} {u v text text' : Text} (h : Decodes q u text)
    (h' : Decodes q v text') : Decodes q (u ++ q :: q :: v) (text ++ q :: text') := by
  induction h with
  | nil => exact .pair h'
  | pair _ ih => exact .pair ih
  | char hne _ ih => exact .char hne ih

/-- Where a text begins with two insides and the delimiter behind each of them, the shorter one ends
at the first half of a pair. -/
theorem Decodes.getElem?_of_lt {q : Char} {t u v text text' : Text} (h : Decodes q u text)
    (h' : Decodes q v text') (hu : u ++ [q] <+: t) (hv : v ++ [q] <+: t)
    (hlt : u.length < v.length) : t[u.length + 1]? = some q := by
  induction h generalizing t v text' with
  | nil =>
    obtain ⟨rest, rfl⟩ := hv
    cases h' with
    | nil => simp at hlt
    | pair _ => rfl
    | char hne _ =>
      obtain ⟨rest', hrest⟩ := hu
      exact absurd (List.cons.inj hrest).1.symm hne
  | @pair u text _ ih =>
    obtain ⟨rest, rfl⟩ := hv
    obtain ⟨rest', hrest⟩ := hu
    cases h' with
    | nil => simp at hlt
    | pair h' =>
      simp only [List.cons_append, List.cons.injEq, true_and] at hrest
      rw [List.length_cons, List.length_cons, List.length_cons, List.length_cons] at hlt
      exact ih h' ⟨rest', hrest⟩ (List.prefix_append _ _) (by omega)
    | char hne _ => exact absurd (List.cons.inj hrest).1.symm hne
  | @char c u text hne _ ih =>
    obtain ⟨rest, rfl⟩ := hv
    obtain ⟨rest', hrest⟩ := hu
    cases h' with
    | nil => simp at hlt
    | pair _ => exact absurd (List.cons.inj hrest).1 hne
    | char _ h' =>
      simp only [List.cons_append, List.cons.injEq] at hrest
      rw [List.length_cons, List.length_cons] at hlt
      exact ih h' ⟨rest', hrest.2⟩ (List.prefix_append _ _) (by omega)

namespace Body

/-- Whether a body ends in its closing delimiter. -/
def isClosed : Body → Bool
  | unclosed _ => false
  | closed _ => true
  | pair _ rest => rest.isClosed

@[simp] theorem isClosed_cons (c : Char) (b : Body) : (b.cons c).isClosed = b.isClosed := by
  cases b <;> rfl

@[simp] theorem longest?_cons (c : Char) (b : Body) :
    (b.cons c).longest? = b.longest?.map (cons c) := by
  cases b with
  | pair run rest =>
    simp only [cons, longest?]
    cases rest.longest? <;> rfl
  | _ => rfl

variable {q : Char} {t : Text}

theorem read_cons_of_ne {c : Char} (h : c ≠ q) (t : Text) :
    read q (c :: t) = (read q t).cons c := by
  rw [read.eq_def]
  simp only [h, ↓reduceIte]

theorem read_pair (q : Char) (t : Text) : read q (q :: q :: t) = pair [] (read q t) := by
  rw [read.eq_def]
  simp only [↓reduceIte]

/-- A delimiter that no second one follows closes a body. -/
theorem read_close (h : t.head? ≠ some q) : read q (q :: t) = closed [] := by
  cases t with
  | nil => simp [read]
  | cons d t =>
    have hd : d ≠ q := by simpa using h
    rw [read.eq_def]
    simp only [hd, ↓reduceIte]

/-! ## Reading follows the rules -/

/-- A text that never closes is the inside of a delimited text as a whole. -/
theorem decodes_of_isClosed_eq_false (h : (read q t).isClosed = false) :
    Decodes q t ((read q t).text q) ∧ (read q t).width = t.length := by
  fun_induction read q t with
  | case1 => exact ⟨.nil, rfl⟩
  | case2 => simp [isClosed] at h
  | case3 t ih =>
    obtain ⟨hd, hw⟩ := ih h
    exact ⟨.pair hd, by simp only [width, hw, List.length_cons, List.length_nil]; omega⟩
  | case4 => simp [isClosed] at h
  | case5 c t hc ih =>
    obtain ⟨hd, hw⟩ := ih (by simpa using h)
    exact ⟨by simpa using hd.char hc, by simpa using hw⟩

/-- A text that closes does so at the first delimiter that no second one follows. -/
theorem exists_decodes_of_isClosed (h : (read q t).isClosed = true) :
    ∃ inside rest, t = inside ++ q :: rest ∧ rest.head? ≠ some q ∧
      Decodes q inside ((read q t).text q) ∧ (read q t).width = inside.length + 1 := by
  fun_induction read q t with
  | case1 => simp [isClosed] at h
  | case2 => exact ⟨[], [], rfl, by simp, .nil, rfl⟩
  | case3 t ih =>
    obtain ⟨inside, rest, ht, hr, hd, hw⟩ := ih h
    refine ⟨q :: q :: inside, rest, by rw [ht]; rfl, hr, .pair hd, ?_⟩
    simp only [width, hw, List.length_cons, List.length_nil]
    omega
  | case4 d t hd => exact ⟨[], d :: t, rfl, by simpa using hd, .nil, rfl⟩
  | case5 c t hc ih =>
    obtain ⟨inside, rest, ht, hr, hd, hw⟩ := ih (by simpa using h)
    exact ⟨c :: inside, rest, by rw [ht]; rfl, hr, by simpa using hd.char hc, by simpa using hw⟩

/-! ## Reading is the only way to follow the rules -/

theorem read_of_decodes {text : Text} (h : Decodes q t text) :
    (read q t).isClosed = false ∧ (read q t).text q = text ∧ (read q t).width = t.length := by
  induction h with
  | nil => exact ⟨rfl, rfl, rfl⟩
  | pair _ ih =>
    obtain ⟨hc, ht, hw⟩ := ih
    rw [read_pair]
    refine ⟨hc, by rw [Body.text, ht]; rfl, ?_⟩
    simp only [width, hw, List.length_cons, List.length_nil]
    omega
  | char hne _ ih =>
    obtain ⟨hc, ht, hw⟩ := ih
    rw [read_cons_of_ne hne]
    exact ⟨by simpa using hc, by simpa using ht, by simpa using hw⟩

theorem read_append_of_decodes {inside text rest : Text} (h : Decodes q inside text)
    (hr : rest.head? ≠ some q) :
    (read q (inside ++ q :: rest)).isClosed = true ∧
      (read q (inside ++ q :: rest)).text q = text ∧
      (read q (inside ++ q :: rest)).width = inside.length + 1 := by
  induction h with
  | nil =>
    rw [List.nil_append, read_close hr]
    exact ⟨rfl, rfl, rfl⟩
  | pair _ ih =>
    obtain ⟨hc, ht, hw⟩ := ih
    rw [List.cons_append, List.cons_append, read_pair]
    refine ⟨hc, by rw [Body.text, ht]; rfl, ?_⟩
    simp only [width, hw, List.length_cons, List.length_nil]
    omega
  | char hne _ ih =>
    obtain ⟨hc, ht, hw⟩ := ih
    rw [List.cons_append, read_cons_of_ne hne]
    exact ⟨by simpa using hc, by simpa using ht, by simpa using hw⟩

/-! ## The longest closed part -/

/-- The longest closed part of a text is the inside of a delimited text and a delimiter. -/
theorem exists_decodes_of_longest? {b : Body} (h : (read q t).longest? = some b) :
    ∃ inside rest, t = inside ++ q :: rest ∧ Decodes q inside (b.text q) ∧
      b.width = inside.length + 1 := by
  fun_induction read q t generalizing b with
  | case1 => simp [longest?] at h
  | case2 =>
    obtain rfl : closed [] = b := by simpa [longest?] using h
    exact ⟨[], [], rfl, .nil, rfl⟩
  | case3 t ih =>
    simp only [longest?] at h
    split at h
    · rename_i b' hb'
      obtain rfl := Option.some.inj h
      obtain ⟨inside, rest, ht, hd, hw⟩ := ih hb'
      refine ⟨q :: q :: inside, rest, by rw [ht]; rfl, .pair hd, ?_⟩
      simp only [width, hw, List.length_cons, List.length_nil]
      omega
    · obtain rfl := Option.some.inj h
      exact ⟨[], q :: t, rfl, .nil, rfl⟩
  | case4 d t hd =>
    obtain rfl : closed [] = b := by simpa [longest?] using h
    exact ⟨[], d :: t, rfl, .nil, rfl⟩
  | case5 c t hc ih =>
    rw [longest?_cons, Option.map_eq_some_iff] at h
    obtain ⟨b', hb', rfl⟩ := h
    obtain ⟨inside, rest, ht, hd, hw⟩ := ih hb'
    exact ⟨c :: inside, rest, by rw [ht]; rfl, by simpa using hd.char hc, by simpa using hw⟩

/-- No closed part of a text is longer than its longest one, and there is one if any is. -/
theorem le_width_of_decodes {inside text : Text} (h : Decodes q inside text) (rest : Text) :
    ∃ b, (read q (inside ++ q :: rest)).longest? = some b ∧ inside.length + 1 ≤ b.width := by
  induction h with
  | nil =>
    by_cases hr : rest.head? = some q
    · obtain ⟨rest, rfl⟩ : ∃ rest', rest = q :: rest' := by
        cases rest with
        | nil => simp at hr
        | cons d rest => exact ⟨rest, by rw [Option.some.inj hr]⟩
      rw [List.nil_append, read_pair, longest?]
      split
      · exact ⟨_, rfl, by simp only [width, List.length_nil]; omega⟩
      · exact ⟨_, rfl, by simp [width]⟩
    · rw [List.nil_append, read_close hr]
      exact ⟨_, rfl, by simp [width]⟩
  | pair _ ih =>
    obtain ⟨b, hb, hw⟩ := ih
    rw [List.cons_append, List.cons_append, read_pair]
    refine ⟨pair [] b, by rw [longest?, hb], ?_⟩
    simp only [width, List.length_cons, List.length_nil]
    omega
  | char hne _ ih =>
    obtain ⟨b, hb, hw⟩ := ih
    rw [List.cons_append, read_cons_of_ne hne, longest?_cons, hb]
    exact ⟨_, rfl, by simpa using hw⟩

end Body

end MiniLex.Doubled
