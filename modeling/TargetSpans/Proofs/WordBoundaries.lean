import Mathlib.Data.List.Pairwise
import Mathlib.Data.List.Sort
import TargetSpans.Proofs.Words

/-!
# Where words end

The scan for words looks one character ahead where a word starts, and it leaves the last capital of
a run to the small letters behind it.  For all that, whether two neighbours share a word is decided
by their classes and the class of the character behind them alone.
-/

namespace TargetSpans

namespace CharClass

variable {classes : List CharClass}

/-- Neighbours of the classes `a` and `b` share a word, when `next` is the class behind them. -/
def Joins (a b : CharClass) (next : Option CharClass) : Prop :=
  a = .lower ∧ b = .lower ∨ a = .digit ∧ b = .digit ∨ a = .upper ∧ b = .lower ∨
    a = .upper ∧ b = .upper ∧ next ≠ some .lower

instance (a b : CharClass) (next : Option CharClass) : Decidable (Joins a b next) :=
  inferInstanceAs (Decidable (a = .lower ∧ b = .lower ∨ a = .digit ∧ b = .digit ∨
    a = .upper ∧ b = .lower ∨ a = .upper ∧ b = .upper ∧ next ≠ some .lower))

/-- The characters at `i` and behind it share a word by their classes. -/
def JoinsAt (classes : List CharClass) (i : Nat) : Prop :=
  ∃ a b, classes[i]? = some a ∧ classes[i + 1]? = some b ∧ Joins a b classes[i + 2]?

theorem joinsAt_zero {a b : CharClass} :
    JoinsAt (a :: b :: classes) 0 ↔ Joins a b classes.head? := by
  simp [JoinsAt, List.head?_eq_getElem?]

theorem not_joinsAt_singleton {a : CharClass} : ¬ JoinsAt [a] 0 := by
  simp [JoinsAt]

theorem joinsAt_cons_succ {a : CharClass} {i : Nat} :
    JoinsAt (a :: classes) (i + 1) ↔ JoinsAt classes i :=
  Iff.rfl

theorem joinsAt_drop {n i : Nat} : JoinsAt (classes.drop n) i ↔ JoinsAt classes (n + i) := by
  simp only [JoinsAt, List.getElem?_drop, Nat.add_assoc]

theorem not_joinsAt_separator : ¬ JoinsAt (.separator :: classes) 0 := by
  rintro ⟨a, b, here, _, joins⟩
  obtain rfl : CharClass.separator = a := by simpa using here
  simp [Joins] at joins

/-- After the first character, the next `n` belong to its word, and the one behind them does not. -/
structure StopsAt (classes : List CharClass) (n : Nat) : Prop where
  joins : ∀ i < n, JoinsAt classes i
  ends : ¬ JoinsAt classes n

theorem StopsAt.zero (ends : ¬ JoinsAt classes 0) : StopsAt classes 0 :=
  ⟨fun _ below => absurd below (Nat.not_lt_zero _), ends⟩

theorem StopsAt.cons {a : CharClass} {n : Nat} (joins : JoinsAt (a :: classes) 0)
    (stops : StopsAt classes n) : StopsAt (a :: classes) (1 + n) where
  joins := by
    intro i below
    cases i with
    | zero => exact joins
    | succ i => exact joinsAt_cons_succ.mpr (stops.joins i (by omega))
  ends := by
    rw [Nat.add_comm, joinsAt_cons_succ]
    exact stops.ends

theorem runLength_cons_self (kind : CharClass) (classes : List CharClass) :
    kind.runLength (kind :: classes) = 1 + kind.runLength classes := by
  simp [runLength, Nat.add_comm]

theorem runLength_cons_of_ne {kind a : CharClass} (other : a ≠ kind) :
    kind.runLength (a :: classes) = 0 := by
  simp [runLength, other]

theorem stopsAt_runLength {kind : CharClass} (plain : kind = .lower ∨ kind = .digit)
    (classes : List CharClass) : StopsAt (kind :: classes) (kind.runLength classes) := by
  induction classes with
  | nil => exact .zero not_joinsAt_singleton
  | cons a rest ih =>
      by_cases same : a = kind
      · subst same
        rw [runLength_cons_self]
        refine ih.cons (joinsAt_zero.mpr ?_)
        rcases plain with rfl | rfl <;> simp [Joins]
      · rw [runLength_cons_of_ne same]
        refine .zero fun joins => ?_
        have joins := joinsAt_zero.mp joins
        rcases plain with rfl | rfl <;> simp_all [Joins]

end CharClass

namespace Piece

open CharClass

/-- In a run of capitals every capital joins the next one, up to the one that small letters follow:
that one starts a word of its own. -/
theorem stopsAt_capitalsLength (classes : List CharClass) (noSmall : classes.head? ≠ some .lower) :
    StopsAt (.upper :: classes) (capitalsLength classes) := by
  fun_induction capitalsLength classes with
  | case1 rest =>
      refine .zero fun joins => ?_
      simpa [Joins] using joinsAt_zero.mp joins
  | case2 rest noLower ih =>
      have behind : rest.head? ≠ some .lower := by
        intro first
        obtain ⟨tail, rfl⟩ := List.head?_eq_some_iff.mp first
        exact noLower tail rfl
      exact (ih behind).cons (joinsAt_zero.mpr (by simpa [Joins] using behind))
  | case3 classes _ noUpper =>
      refine .zero fun joins => ?_
      cases classes with
      | nil => exact not_joinsAt_singleton joins
      | cons a rest =>
          have joins := joinsAt_zero.mp joins
          cases a with
          | upper => exact noUpper rest rfl
          | lower => exact noSmall rfl
          | digit => simp [Joins] at joins
          | separator => simp [Joins] at joins

theorem stopsAt_tailLength {first : CharClass} (letter : first ≠ .separator)
    (rest : List CharClass) : StopsAt (first :: rest) (tailLength first rest) := by
  unfold tailLength
  split
  case h_1 rest =>
    refine (stopsAt_runLength (.inl rfl) rest).cons (joinsAt_zero.mpr ?_)
    simp [Joins]
  case h_2 noLower =>
    refine stopsAt_capitalsLength rest fun first => ?_
    obtain ⟨tail, rfl⟩ := List.head?_eq_some_iff.mp first
    exact noLower tail rfl
  case h_3 => exact stopsAt_runLength (.inl rfl) rest
  case h_4 => exact stopsAt_runLength (.inr rfl) rest
  case h_5 => exact absurd rfl letter

instance : Membership Nat Piece where
  mem p i := p.start ≤ i ∧ i < p.stop

theorem mem_iff {p : Piece} {i : Nat} : i ∈ p ↔ p.start ≤ i ∧ i < p.stop :=
  Iff.rfl

theorem not_mem_of_lt_start {p : Piece} {i : Nat} (before : i < p.start) : i ∉ p :=
  fun inside => Nat.not_le_of_lt before inside.1

theorem not_mem_of_stop_le {p : Piece} {i : Nat} (behind : p.stop ≤ i) : i ∉ p :=
  fun inside => Nat.not_lt_of_le behind inside.2

theorem le_start_of_mem_wordsFrom {index : Nat} {classes : List CharClass} {p : Piece}
    (member : p ∈ wordsFrom index classes) : index ≤ p.start := by
  obtain ⟨before, word, after, _, rfl, _⟩ := exists_append_of_mem_wordsFrom member
  exact Nat.le_add_right _ _

theorem wordsFrom_pairwise (index : Nat) (classes : List CharClass) :
    (wordsFrom index classes).Pairwise fun p q => p.stop ≤ q.start := by
  fun_induction wordsFrom index classes with
  | case1 => exact .nil
  | case2 index rest ih => exact ih
  | case3 index first rest letter tail ih =>
      exact .cons (fun q later => le_start_of_mem_wordsFrom later) ih

theorem exists_mem_wordsFrom_iff (index : Nat) (classes : List CharClass) :
    ∀ i, (∃ p ∈ wordsFrom index classes, index + i ∈ p) ↔
      ∃ c, classes[i]? = some c ∧ c ≠ .separator := by
  fun_induction wordsFrom index classes with
  | case1 => simp
  | case2 index rest ih =>
      intro i
      cases i with
      | zero =>
          have apart : ∀ p ∈ wordsFrom (index + 1) rest, index ∉ p := fun p member =>
            not_mem_of_lt_start (le_start_of_mem_wordsFrom member)
          simpa using apart
      | succ i =>
          have shifted : index + (i + 1) = index + 1 + i := by omega
          rw [shifted, ih, List.getElem?_cons_succ]
  | case3 index first rest letter tail ih =>
      intro i
      by_cases inFirst : i ≤ tail
      · have short : tail ≤ rest.length := tailLength_le first rest
        have found : (first :: rest.take tail)[i]? = (first :: rest)[i]? := by
          rw [← List.take_succ_cons, List.getElem?_take_of_lt (by omega)]
        obtain ⟨c, here⟩ : ∃ c, (first :: rest)[i]? = some c :=
          ⟨_, List.getElem?_eq_getElem (by rw [List.length_cons]; omega)⟩
        have noSeparator : c ≠ .separator :=
          (wordForm_take_tailLength letter rest).ne_separator c
            (List.mem_of_getElem? (found.trans here))
        refine iff_of_true ⟨_, List.mem_cons_self, ?_⟩ ⟨c, here, noSeparator⟩
        rw [mem_iff]
        dsimp only
        omega
      · obtain ⟨j, rfl⟩ : ∃ j, i = tail + 1 + j := ⟨i - (tail + 1), by omega⟩
        have shifted : index + (tail + 1 + j) = index + 1 + tail + j := by omega
        have outside : index + 1 + tail + j ∉ (⟨index, index + 1 + tail⟩ : Piece) :=
          not_mem_of_stop_le (Nat.le_add_right _ _)
        have behind : (first :: rest)[tail + 1 + j]? = (rest.drop tail)[j]? := by
          rw [List.getElem?_drop, Nat.add_right_comm, List.getElem?_cons_succ]
        rw [shifted, behind, ← ih]
        simp [outside]

theorem exists_both_mem_wordsFrom_iff (index : Nat) (classes : List CharClass) :
    ∀ i, (∃ p ∈ wordsFrom index classes, index + i ∈ p ∧ index + i + 1 ∈ p) ↔
      JoinsAt classes i := by
  fun_induction wordsFrom index classes with
  | case1 => simp [JoinsAt]
  | case2 index rest ih =>
      intro i
      cases i with
      | zero =>
          refine iff_of_false ?_ not_joinsAt_separator
          rintro ⟨p, member, inside, _⟩
          exact not_mem_of_lt_start (le_start_of_mem_wordsFrom member) inside
      | succ i =>
          have shifted : index + (i + 1) = index + 1 + i := by omega
          rw [shifted, ih, joinsAt_cons_succ]
  | case3 index first rest letter tail ih =>
      intro i
      have stops : StopsAt (first :: rest) tail := stopsAt_tailLength letter rest
      -- The word that starts here, its last character, and the words behind it.
      rcases Nat.lt_trichotomy i tail with inFirst | rfl | later
      · refine iff_of_true ⟨_, List.mem_cons_self, ?_⟩ (stops.joins i inFirst)
        simp only [mem_iff]
        omega
      · refine iff_of_false ?_ stops.ends
        rintro ⟨p, member, here, next⟩
        rcases List.mem_cons.mp member with rfl | later
        · exact not_mem_of_stop_le (by dsimp only; omega) next
        · have behind := le_start_of_mem_wordsFrom later
          exact not_mem_of_lt_start (by omega) here
      · obtain ⟨j, rfl⟩ : ∃ j, i = tail + 1 + j := ⟨i - (tail + 1), by omega⟩
        have shifted : index + (tail + 1 + j) = index + 1 + tail + j := by omega
        have outside : index + 1 + tail + j ∉ (⟨index, index + 1 + tail⟩ : Piece) :=
          not_mem_of_stop_le (Nat.le_add_right _ _)
        rw [shifted, ← joinsAt_drop, List.drop_succ_cons, ← ih]
        simp [outside]

/-- The pieces a text falls into when an index lies in a piece unless a separator stands there, and
neighbours share a piece as their classes and the class behind them say. -/
structure WordCut (t : Text) (pieces : List Piece) : Prop where
  bounds : ∀ p ∈ pieces, p.start < p.stop ∧ p.stop ≤ t.length
  ordered : pieces.Pairwise fun p q => p.stop ≤ q.start
  covers : ∀ i, (∃ p ∈ pieces, i ∈ p) ↔ ∃ c, t[i]? = some c ∧ CharClass.ofChar c ≠ .separator
  unique : ∀ p ∈ pieces, ∀ q ∈ pieces, ∀ i, i ∈ p → i ∈ q → p = q
  joins : ∀ i a b, t[i]? = some a → t[i + 1]? = some b →
    ((∃ p ∈ pieces, i ∈ p ∧ i + 1 ∈ p) ↔
      Joins (.ofChar a) (.ofChar b) (t[i + 2]?.map CharClass.ofChar))
  forms : ∀ p ∈ pieces, WordForm ((p.cut t).map CharClass.ofChar)

theorem unique_of_ordered {pieces : List Piece}
    (ordered : pieces.Pairwise fun p q => p.stop ≤ q.start) {p q : Piece} (left : p ∈ pieces)
    (right : q ∈ pieces) : ∀ i, i ∈ p → i ∈ q → p = q := by
  have apart : pieces.Pairwise fun p q => ∀ i, i ∈ p → i ∈ q → p = q :=
    ordered.imp fun order i first second =>
      absurd first.2 (Nat.not_lt_of_le (order.trans second.1))
  have symmetric : Std.Symm fun p q : Piece => ∀ i, i ∈ p → i ∈ q → p = q :=
    ⟨fun _ _ same i first second => (same i second first).symm⟩
  exact apart.forall_of_forall (fun _ _ _ _ _ => rfl) left right

theorem cut_append (before word after : Text) :
    cut ⟨before.length, before.length + word.length⟩ (before ++ word ++ after) = word := by
  simp [cut, List.take_append]

/-- The words of a text, told from the classes of its characters alone. -/
theorem wordCut_words (t : Text) : WordCut t (words t) where
  bounds := by
    intro p member
    obtain ⟨before, word, after, rfl, rfl, nonempty, _⟩ := exists_append_of_mem_words member
    have positive := List.length_pos_iff.mpr nonempty
    simp only [List.length_append]
    omega
  ordered := wordsFrom_pairwise 0 _
  covers i := by
    have covered := exists_mem_wordsFrom_iff 0 (t.map CharClass.ofChar) i
    simpa [words, List.getElem?_map] using covered
  unique := fun _ left _ right => unique_of_ordered (wordsFrom_pairwise 0 _) left right
  joins i a b here next := by
    have together := exists_both_mem_wordsFrom_iff 0 (t.map CharClass.ofChar) i
    simpa [words, JoinsAt, here, next] using together
  forms := by
    intro p member
    obtain ⟨before, word, after, rfl, rfl, form⟩ := exists_wordForm_of_mem_words member
    rwa [cut_append]

theorem wordCut_serverName :
    (¬ ∃ p ∈ words "HTTPServer2".toList, 3 ∈ p ∧ 4 ∈ p) ∧
      ∃ p ∈ words "HTTPServer2".toList, 4 ∈ p ∧ 5 ∈ p := by
  have cutUp := wordCut_words "HTTPServer2".toList
  refine ⟨fun shared => ?_, (cutUp.joins 4 'S' 'e' rfl rfl).mpr (by decide)⟩
  have joins := (cutUp.joins 3 'P' 'S' rfl rfl).mp shared
  exact absurd joins (by decide)

namespace WordCut

variable {t : Text} {pieces others : List Piece}

theorem exists_getElem? (cutUp : WordCut t pieces) {p : Piece} (member : p ∈ pieces) {i : Nat}
    (inside : i ∈ p) : ∃ c, t[i]? = some c := by
  obtain ⟨c, here, _⟩ := (cutUp.covers i).mp ⟨p, member, inside⟩
  exact ⟨c, here⟩

/-- Neighbours in a piece of one cut are neighbours in a piece of every other. -/
theorem succ_mem (cutUp : WordCut t pieces) (other : WordCut t others) {p q : Piece}
    (left : p ∈ pieces) (right : q ∈ others) {i : Nat} (here : i ∈ q) (next : i + 1 ∈ q) :
    i ∈ p ↔ i + 1 ∈ p := by
  obtain ⟨a, charHere⟩ := other.exists_getElem? right here
  obtain ⟨b, charNext⟩ := other.exists_getElem? right next
  have joins := (other.joins i a b charHere charNext).mp ⟨q, right, here, next⟩
  obtain ⟨r, found, hereFound, nextFound⟩ := (cutUp.joins i a b charHere charNext).mpr joins
  constructor
  · intro inside
    rwa [cutUp.unique p left r found i inside hereFound]
  · intro inside
    rwa [cutUp.unique p left r found (i + 1) inside nextFound]

/-- Pieces of two cuts that meet lie within each other. -/
theorem within (cutUp : WordCut t pieces) (other : WordCut t others) {p q : Piece}
    (left : p ∈ pieces) (right : q ∈ others) {i : Nat} (inLeft : i ∈ p) (inRight : i ∈ q) :
    p.start ≤ q.start ∧ q.stop ≤ p.stop := by
  have move {j : Nat} (here : j ∈ q) (next : j + 1 ∈ q) : j ∈ p ↔ j + 1 ∈ p :=
    cutUp.succ_mem other left right here next
  rw [mem_iff] at inLeft inRight
  constructor
  · by_contra beyond
    have crossing := move (j := p.start - 1) (by rw [mem_iff]; omega) (by rw [mem_iff]; omega)
    simp only [mem_iff] at crossing
    omega
  · by_contra beyond
    have crossing := move (j := p.stop - 1) (by rw [mem_iff]; omega) (by rw [mem_iff]; omega)
    simp only [mem_iff] at crossing
    omega

theorem subset (cutUp : WordCut t pieces) (other : WordCut t others) : pieces ⊆ others := by
  intro p member
  have atStart : p.start ∈ p := ⟨le_rfl, (cutUp.bounds p member).1⟩
  obtain ⟨q, found, inside⟩ :=
    (other.covers p.start).mpr ((cutUp.covers p.start).mp ⟨p, member, atStart⟩)
  have outer := cutUp.within other member found atStart inside
  have inner := other.within cutUp found member inside atStart
  obtain rfl : p = q := by
    cases p
    cases q
    simp only [mk.injEq] at *
    omega
  exact found

theorem increasing (cutUp : WordCut t pieces) :
    pieces.Pairwise fun p q => p.start < q.start :=
  cutUp.ordered.imp_of_mem fun left _ order => (cutUp.bounds _ left).1.trans_le order

/-- The rule leaves no choice: a text has one cut only. -/
theorem eq_of_wordCut (cutUp : WordCut t pieces) (other : WordCut t others) : pieces = others := by
  have irreflexive : Std.Irrefl fun p q : Piece => p.start < q.start :=
    ⟨fun _ => Nat.lt_irrefl _⟩
  have antisymmetric : Std.Antisymm fun p q : Piece => p.start < q.start :=
    ⟨fun _ _ before behind => absurd behind (Nat.lt_asymm before)⟩
  exact cutUp.increasing.eq_of_mem_iff other.increasing fun p =>
    ⟨fun member => cutUp.subset other member, fun member => other.subset cutUp member⟩

end WordCut

end Piece

end TargetSpans
