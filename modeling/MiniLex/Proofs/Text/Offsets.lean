import MiniLex.Text.Basic

/-!
# Texts by offsets

How the parts of a text before, between and after offsets fit together:

* `drop_eq_cons`, `drop_add_of_drop_eq_append`: the text from an offset on;
* `lineEnds_take_eq_add`, `lineEnds_slice_add`: line ends up to an offset;
* `LongestRun`: the longest run of a class of characters from an offset on,
  which is what `List.takeWhile` cuts off there (`longestRun_iff`). It is the
  same in a text that goes on with another character, or has more before it
  (`LongestRun.of_take`, `LongestRun.of_drop`).
-/

namespace MiniLex.Text

variable {t : Text} {P : Char → Prop} {test : Char → Bool} {i start stop : Nat} {c : Char}

theorem drop_eq_cons (h : t[i]? = some c) : t.drop i = c :: t.drop (i + 1) := by
  obtain ⟨hi, rfl⟩ := List.getElem?_eq_some_iff.mp h
  exact List.drop_eq_getElem_cons hi

theorem getElem?_of_drop_eq_cons {rest : Text} (h : t.drop i = c :: rest) : t[i]? = some c := by
  rw [← List.head?_drop, h]
  rfl

theorem lt_length_of_drop_eq_cons {rest : Text} (h : t.drop i = c :: rest) : i < t.length :=
  (List.getElem?_eq_some_iff.mp (getElem?_of_drop_eq_cons h)).1

theorem drop_add_of_drop_eq_append {u v : Text} (h : t.drop i = u ++ v) :
    t.drop (i + u.length) = v := by
  rw [← List.drop_drop, h, List.drop_left]

theorem length_of_drop_eq_append {u v : Text} (h : t.drop i = u ++ v) (hu : u ≠ []) :
    i + u.length ≤ t.length := by
  have hl := congrArg List.length h
  have hp := List.length_pos_iff.mpr hu
  rw [List.length_drop, List.length_append] at hl
  omega

theorem slice_of_drop_eq_append {u v : Text} (h : t.drop i = u ++ v) :
    t.slice i (i + u.length) = u := by
  rw [slice, h, Nat.add_sub_cancel_left, List.take_left]

theorem length_slice (h : stop ≤ t.length) : (t.slice start stop).length = stop - start := by
  rw [slice, List.length_take, List.length_drop]
  exact Nat.min_eq_left (Nat.sub_le_sub_right h start)

theorem slice_take {n : Nat} (h : stop ≤ n) :
    slice (t.take n) start stop = t.slice start stop := by
  rw [slice, slice, List.drop_take, List.take_take, Nat.min_eq_left (Nat.sub_le_sub_right h start)]

theorem slice_drop (t : Text) (k start stop : Nat) :
    slice (t.drop k) start stop = t.slice (k + start) (k + stop) := by
  rw [slice, slice, List.drop_drop, Nat.add_sub_add_left]

theorem slice_of_getElem? (h : t[i]? = some c) : t.slice i (i + 1) = [c] := by
  rw [slice, drop_eq_cons h, Nat.add_sub_cancel_left]
  rfl

theorem slice_length (t : Text) (i : Nat) : t.slice i t.length = t.drop i := by
  rw [slice, List.take_of_length_le (Nat.le_of_eq List.length_drop)]

theorem drop_eq_slice_append (t : Text) {i j : Nat} (h : i ≤ j) :
    t.drop i = t.slice i j ++ t.drop j := by
  obtain ⟨n, rfl⟩ := Nat.exists_eq_add_of_le h
  rw [slice, Nat.add_sub_cancel_left, ← List.drop_drop, List.take_append_drop]

/-! ## Line ends before an offset -/

theorem lineEnds_take_eq_add (t : Text) {i j : Nat} (h : i ≤ j) :
    lineEnds (t.take j) = lineEnds (t.take i) + lineEnds (t.slice i j) := by
  obtain ⟨n, rfl⟩ := Nat.exists_eq_add_of_le h
  rw [List.take_add, lineEnds_append, slice, Nat.add_sub_cancel_left]

theorem lineEnds_slice_add (t : Text) {i j k : Nat} (hij : i ≤ j) (hjk : j ≤ k) :
    lineEnds (t.slice i k) = lineEnds (t.slice i j) + lineEnds (t.slice j k) := by
  have hik := lineEnds_take_eq_add t (Nat.le_trans hij hjk)
  rw [lineEnds_take_eq_add t hjk, lineEnds_take_eq_add t hij] at hik
  omega

/-! ## Longest runs -/

/-- The longest run of characters of a class from one offset on ends at another. -/
structure LongestRun (t : Text) (P : Char → Prop) (start stop : Nat) : Prop where
  le : start ≤ stop
  le_length : stop ≤ t.length
  all : ∀ i, start ≤ i → i < stop → ∃ c, t[i]? = some c ∧ P c
  next : ∀ c, t[stop]? = some c → ¬P c

theorem LongestRun.unique {stop' : Nat} (h : t.LongestRun P start stop)
    (h' : t.LongestRun P start stop') : stop = stop' := by
  rcases Nat.lt_trichotomy stop stop' with hlt | heq | hlt
  · obtain ⟨c, hc, hP⟩ := h'.all stop h.le hlt
    exact absurd hP (h.next c hc)
  · exact heq
  · obtain ⟨c, hc, hP⟩ := h.all stop' h'.le hlt
    exact absurd hP (h'.next c hc)

/-- The longest run from an offset on is empty where no character of the class stands. -/
theorem longestRun_self (h : start ≤ t.length) (hn : ∀ c, t[start]? = some c → ¬P c) :
    t.LongestRun P start start :=
  ⟨Nat.le_refl _, h, fun _ hi hi' => absurd hi' (Nat.not_lt.mpr hi), hn⟩

/-- `List.takeWhile` cuts the longest run off, if its test decides the class. -/
theorem longestRun_takeWhile (htest : ∀ c, test c = true ↔ P c) (h : start ≤ t.length) :
    t.LongestRun P start (start + ((t.drop start).takeWhile test).length) := by
  have hsplit : t.drop start = (t.drop start).takeWhile test ++ (t.drop start).dropWhile test :=
    List.takeWhile_append_dropWhile.symm
  have hall : ∀ c ∈ (t.drop start).takeWhile test, test c = true :=
    List.all_eq_true.mp List.all_takeWhile
  have hnext := List.head?_dropWhile_not test (t.drop start)
  generalize (t.drop start).takeWhile test = u at hsplit hall ⊢
  generalize (t.drop start).dropWhile test = v at hsplit hnext
  have hlen := congrArg List.length hsplit
  rw [List.length_drop, List.length_append] at hlen
  refine ⟨Nat.le_add_right _ _, by omega, fun i hi hi' => ?_, fun c hc hP => ?_⟩
  · obtain ⟨n, rfl⟩ := Nat.exists_eq_add_of_le hi
    have hn : n < u.length := by omega
    refine ⟨u[n], ?_, (htest _).mp (hall _ (List.getElem_mem hn))⟩
    rw [← List.getElem?_drop, hsplit, List.getElem?_append_left hn, List.getElem?_eq_getElem hn]
  · rw [← List.head?_drop, drop_add_of_drop_eq_append hsplit] at hc
    rw [hc] at hnext
    exact Bool.eq_false_iff.mp hnext ((htest c).mpr hP)

theorem longestRun_iff (htest : ∀ c, test c = true ↔ P c) (h : start ≤ t.length) :
    t.LongestRun P start stop ↔ stop = start + ((t.drop start).takeWhile test).length :=
  ⟨fun hr => hr.unique (longestRun_takeWhile htest h),
    fun he => he ▸ longestRun_takeWhile htest h⟩

theorem LongestRun.slice_eq (htest : ∀ c, test c = true ↔ P c) (h : t.LongestRun P start stop) :
    t.slice start stop = (t.drop start).takeWhile test := by
  have hstop := (longestRun_iff htest (Nat.le_trans h.le h.le_length)).mp h
  rw [hstop]
  exact slice_of_drop_eq_append List.takeWhile_append_dropWhile.symm

theorem LongestRun.add_length (h : t.LongestRun P start stop) :
    start + (t.slice start stop).length = stop := by
  rw [length_slice h.le_length]
  exact Nat.add_sub_of_le h.le

theorem LongestRun.of_mem_slice (h : t.LongestRun P start stop) (hc : c ∈ t.slice start stop) :
    P c := by
  obtain ⟨n, hn, hget⟩ := List.mem_iff_getElem.mp hc
  have hlen := h.add_length
  obtain ⟨d, hd, hP⟩ := h.all (start + n) (Nat.le_add_right _ _) (by omega)
  have hsome : (t.slice start stop)[n]? = some c := List.getElem?_eq_some_iff.mpr ⟨hn, hget⟩
  rw [slice, List.getElem?_take_of_lt (by omega), List.getElem?_drop, hd] at hsome
  rwa [← Option.some.inj hsome]

/-- A first part of a text that has only characters of a class is part of the longest run. -/
theorem length_le_takeWhile {w : Text} (h : w <+: t) (hall : ∀ c ∈ w, test c = true) :
    w.length ≤ (t.takeWhile test).length := by
  obtain ⟨v, rfl⟩ := h
  rw [List.takeWhile_append_of_pos hall, List.length_append]
  exact Nat.le_add_right _ _

/-! ## Longest runs in a part of a text -/

/-- A run that ends in the first part of a text ends there still if the text goes on, unless it ends
where that part does and goes on itself. -/
theorem LongestRun.of_take {n : Nat} (h : LongestRun (t.take n) P start stop)
    (hnext : stop = n → ∀ c, t[n]? = some c → ¬P c) : t.LongestRun P start stop := by
  have hn : stop ≤ n := Nat.le_trans h.le_length (List.length_take_le _ _)
  refine ⟨h.le, Nat.le_trans h.le_length (List.length_take_le' _ _), fun i hi hi' => ?_,
    fun c hc => ?_⟩
  · obtain ⟨c, hc, hP⟩ := h.all i hi hi'
    rw [List.getElem?_take_of_lt (Nat.lt_of_lt_of_le hi' hn)] at hc
    exact ⟨c, hc, hP⟩
  · rcases Nat.lt_or_eq_of_le hn with hlt | rfl
    · exact h.next c (by rwa [List.getElem?_take_of_lt hlt])
    · exact hnext rfl c hc

/-- A run is the same in a text that has more before it. -/
theorem LongestRun.of_drop {k : Nat} (hk : k ≤ t.length)
    (h : LongestRun (t.drop k) P start stop) : t.LongestRun P (k + start) (k + stop) := by
  have hle := h.le
  have hlength := h.le_length
  rw [List.length_drop] at hlength
  refine ⟨by omega, by omega, fun i hi hi' => ?_, fun c hc => h.next c ?_⟩
  · obtain ⟨l, rfl⟩ := Nat.exists_eq_add_of_le (Nat.le_trans (Nat.le_add_right k start) hi)
    obtain ⟨c, hc, hP⟩ := h.all l (by omega) (by omega)
    rw [List.getElem?_drop] at hc
    exact ⟨c, hc, hP⟩
  · rwa [List.getElem?_drop]

/-- A run that ends where another one begins and the characters before it make one run. -/
theorem LongestRun.of_all {mid : Nat} (hle : start ≤ mid)
    (hall : ∀ i, start ≤ i → i < mid → ∃ c, t[i]? = some c ∧ P c)
    (h : t.LongestRun P mid stop) : t.LongestRun P start stop := by
  refine ⟨Nat.le_trans hle h.le, h.le_length, fun i hi hi' => ?_, h.next⟩
  rcases Nat.lt_or_ge i mid with hlt | hge
  · exact hall i hi hlt
  · exact h.all i hge hi'

end MiniLex.Text
