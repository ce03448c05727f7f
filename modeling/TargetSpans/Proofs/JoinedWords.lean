import TargetSpans.Proofs.WordBoundaries

/-!
# Words that are joined

The words of a text can be put together again with a separator between them, and the new text has
the same words.  Two things make this work.  A separator ends every word, so that the scan starts
afresh behind it.  And a word is one word wherever it stands: the capitals that the scan leaves to
the small letters behind them are never part of the word, so nothing changes when these letters are
gone.
-/

namespace TargetSpans

/-- The words of a text, as texts of their own. -/
def Text.words (t : Text) : List Text := (Piece.words t).map fun p => p.cut t

namespace CharClass

theorem runLength_append_separator {kind : CharClass} (letter : kind ≠ .separator)
    (classes after : List CharClass) :
    kind.runLength (classes ++ .separator :: after) = kind.runLength classes := by
  induction classes with
  | nil => exact runLength_cons_of_ne letter.symm
  | cons a rest ih =>
      by_cases same : a = kind
      · subst same
        rw [List.cons_append, runLength_cons_self, runLength_cons_self, ih]
      · rw [List.cons_append, runLength_cons_of_ne same, runLength_cons_of_ne same]

theorem runLength_of_forall {kind : CharClass} {classes : List CharClass}
    (all : ∀ c ∈ classes, c = kind) : kind.runLength classes = classes.length := by
  have whole : classes.takeWhile (· = kind) = classes :=
    List.takeWhile_eq_self_iff.mpr fun c member => decide_eq_true (all c member)
  rw [runLength, whole]

end CharClass

namespace Piece

open CharClass

/-! ## A separator ends a word -/

theorem capitalsLength_append_separator (classes after : List CharClass) :
    capitalsLength (classes ++ .separator :: after) = capitalsLength classes := by
  fun_induction capitalsLength classes with
  | case1 => rfl
  | case2 rest noSmall ih =>
      cases rest with
      | nil => rfl
      | cons a rest =>
          cases a with
          | lower => exact absurd rfl (noSmall rest)
          | upper => simpa [capitalsLength] using ih
          | digit | separator => rfl
  | case3 classes noSmall noCapital =>
      cases classes with
      | nil => rfl
      | cons a rest =>
          cases a with
          | upper => exact absurd rfl (noCapital rest)
          | lower | digit | separator => rfl

theorem tailLength_append_separator (first : CharClass) (rest after : List CharClass) :
    tailLength first (rest ++ .separator :: after) = tailLength first rest := by
  cases first with
  | separator => rfl
  | lower => exact runLength_append_separator (by decide) rest after
  | digit => exact runLength_append_separator (by decide) rest after
  | upper =>
      cases rest with
      | nil => rfl
      | cons a rest =>
          cases a with
          | lower => exact congrArg (1 + ·) (runLength_append_separator (by decide) rest after)
          | upper => exact capitalsLength_append_separator (.upper :: rest) after
          | digit | separator => rfl

theorem wordsFrom_cons {first : CharClass} (letter : first ≠ .separator) (index : Nat)
    (rest : List CharClass) :
    wordsFrom index (first :: rest) =
      ⟨index, index + 1 + tailLength first rest⟩ ::
        wordsFrom (index + 1 + tailLength first rest) (rest.drop (tailLength first rest)) := by
  rw [wordsFrom]
  exact letter

/-- The scan starts afresh behind a separator. -/
theorem wordsFrom_append_separator (index : Nat) (before after : List CharClass) :
    wordsFrom index (before ++ .separator :: after) =
      wordsFrom index before ++ wordsFrom (index + before.length + 1) after := by
  fun_induction wordsFrom index before with
  | case1 index => simp [wordsFrom]
  | case2 index rest ih =>
      rw [List.cons_append, wordsFrom, ih, List.length_cons]
      congr 2
      omega
  | case3 index first rest letter tail ih =>
      have short : tail ≤ rest.length := tailLength_le first rest
      have same : tailLength first (rest ++ .separator :: after) = tail :=
        tailLength_append_separator first rest after
      have reached : index + 1 + tail + (rest.drop tail).length + 1 =
          index + (first :: rest).length + 1 := by
        rw [List.length_drop, List.length_cons]
        omega
      rw [reached] at ih
      rw [List.cons_append, wordsFrom_cons letter, same, List.drop_append_of_le_length short, ih,
        List.cons_append]

/-- The same stretch when `n` more characters stand before the text. -/
def shift (n : Nat) (p : Piece) : Piece := ⟨n + p.start, n + p.stop⟩

theorem wordsFrom_add (n index : Nat) (classes : List CharClass) :
    wordsFrom (n + index) classes = (wordsFrom index classes).map (shift n) := by
  fun_induction wordsFrom index classes with
  | case1 => simp [wordsFrom]
  | case2 index rest ih => rw [wordsFrom, Nat.add_assoc, ih]
  | case3 index first rest letter tail ih =>
      have reached : n + index + 1 + tail = n + (index + 1 + tail) := by omega
      rw [wordsFrom_cons letter, reached, ih, List.map_cons, shift]

theorem cut_append_of_stop_le {p : Piece} {t : Text} (inside : p.stop ≤ t.length) (after : Text) :
    p.cut (t ++ after) = p.cut t := by
  rw [cut, cut, List.take_append_of_le_length inside]

theorem cut_shift (before t : Text) (p : Piece) :
    (p.shift before.length).cut (before ++ t) = p.cut t := by
  simp [cut, shift, List.take_append, List.drop_append]

/-! ## A word stands on its own -/

theorem ne_small_of_forall {classes : List CharClass} (all : ∀ c ∈ classes, c = .upper)
    (after : List CharClass) : classes ≠ .lower :: after := by
  rintro rfl
  exact absurd (all .lower List.mem_cons_self) (by decide)

theorem capitalsLength_of_forall {classes : List CharClass} (all : ∀ c ∈ classes, c = .upper) :
    capitalsLength classes = classes.length := by
  induction classes with
  | nil => rfl
  | cons a rest ih =>
      obtain ⟨rfl, others⟩ := List.forall_mem_cons.mp all
      rw [capitalsLength, ih others, List.length_cons, Nat.add_comm]
      exact ne_small_of_forall others

/-- A text with the classes of a word is one word from its first character to its last. -/
theorem wordsFrom_of_wordForm {classes : List CharClass} (form : WordForm classes) (index : Nat) :
    wordsFrom index classes = [⟨index, index + classes.length⟩] := by
  cases classes with
  | nil => exact absurd rfl form.ne_nil
  | cons first rest =>
      have letter : first ≠ .separator := form.ne_separator first List.mem_cons_self
      have whole : tailLength first rest = rest.length := by
        cases form with
        | small _ all =>
            obtain ⟨rfl, others⟩ := List.forall_mem_cons.mp all
            exact runLength_of_forall others
        | digits _ all =>
            obtain ⟨rfl, others⟩ := List.forall_mem_cons.mp all
            exact runLength_of_forall others
        | capitals _ all =>
            obtain ⟨rfl, others⟩ := List.forall_mem_cons.mp all
            rw [tailLength, capitalsLength_of_forall others]
            exact ne_small_of_forall others
        | capitalised nonempty all =>
            cases rest with
            | nil => exact absurd rfl nonempty
            | cons a rest =>
                obtain ⟨rfl, others⟩ := List.forall_mem_cons.mp all
                rw [tailLength, runLength_of_forall others, List.length_cons, Nat.add_comm]
      rw [wordsFrom_cons letter, whole, List.drop_length, wordsFrom, List.length_cons]
      congr 2
      omega

end Piece

namespace Text

theorem wordForm_of_mem_words {t w : Text} (member : w ∈ t.words) :
    WordForm (w.map CharClass.ofChar) := by
  obtain ⟨p, found, rfl⟩ := List.mem_map.mp member
  exact (Piece.wordCut_words t).forms p found

theorem words_of_wordForm {w : Text} (form : WordForm (w.map CharClass.ofChar)) :
    Piece.words w = [⟨0, w.length⟩] := by
  simpa [Piece.words] using Piece.wordsFrom_of_wordForm form 0

theorem words_eq_singleton {w : Text} (form : WordForm (w.map CharClass.ofChar)) :
    w.words = [w] := by
  simp [words, words_of_wordForm form, Piece.cut]

section

variable {s : Char} (separates : CharClass.ofChar s = .separator)
include separates

/-- The words on both sides of a separator are the words of the whole text. -/
theorem words_append_separator (a b : Text) : (a ++ s :: b).words = a.words ++ b.words := by
  have front : ∀ p ∈ Piece.words a, p.cut (a ++ s :: b) = p.cut a := fun p member =>
    Piece.cut_append_of_stop_le ((Piece.wordCut_words a).bounds p member).2 _
  have back : ∀ p : Piece, (p.shift (a.length + 1)).cut (a ++ s :: b) = p.cut b := by
    intro p
    have split : a ++ s :: b = (a ++ [s]) ++ b := by simp
    have behind : a.length + 1 = (a ++ [s]).length := by simp
    rw [split, behind, Piece.cut_shift]
  have pieces : Piece.words (a ++ s :: b) =
      Piece.words a ++ (Piece.words b).map (Piece.shift (a.length + 1)) := by
    rw [Piece.words, List.map_append, List.map_cons, separates, Piece.wordsFrom_append_separator,
      List.length_map, Nat.zero_add, Piece.words, Piece.words, ← Piece.wordsFrom_add, Nat.add_zero]
  rw [words, pieces, List.map_append, List.map_congr_left front, List.map_map]
  congr 1
  exact List.map_congr_left fun p _ => back p

theorem words_intercalate {ws : List Text}
    (forms : ∀ w ∈ ws, WordForm (w.map CharClass.ofChar)) :
    Text.words (List.intercalate [s] ws) = ws := by
  induction ws with
  | nil => simp [words, Piece.words, Piece.wordsFrom]
  | cons w rest ih =>
      obtain ⟨form, others⟩ := List.forall_mem_cons.mp forms
      cases rest with
      | nil => rw [List.intercalate_singleton, words_eq_singleton form]
      | cons next rest =>
          rw [List.intercalate_cons_cons, List.append_assoc, List.singleton_append,
            words_append_separator separates, words_eq_singleton form, ih others,
            List.singleton_append]

/-- The words of a text are read back from the text that joins them with a separator.  Each of them
is a single word of its own, and a separator always keeps the words on its two sides apart. -/
theorem words_join (t : Text) :
    Text.words (List.intercalate [s] t.words) = t.words ∧
      (∀ w ∈ t.words, Piece.words w = [⟨0, w.length⟩]) ∧
      ∀ a b : Text, (a ++ s :: b).words = a.words ++ b.words :=
  ⟨words_intercalate separates fun _ => wordForm_of_mem_words,
    fun _ member => words_of_wordForm (wordForm_of_mem_words member),
    words_append_separator separates⟩

end

theorem serverName_joined :
    CharClass.ofChar '-' = .separator ∧
      Text.words "HTTPServer2".toList = ["HTTP".toList, "Server".toList, "2".toList] ∧
      Text.words "HTTP-Server-2".toList = ["HTTP".toList, "Server".toList, "2".toList] := by
  have separates : CharClass.ofChar '-' = .separator := by decide
  have cutUp : Text.words "HTTPServer2".toList =
      ["HTTP".toList, "Server".toList, "2".toList] := by cbv
  have joined := (words_join separates "HTTPServer2".toList).1
  rw [cutUp] at joined
  exact ⟨separates, cutUp, joined⟩

end Text

end TargetSpans
