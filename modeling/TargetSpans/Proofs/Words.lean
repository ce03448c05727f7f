import Mathlib.Data.List.TakeWhile
import TargetSpans.Text.Pieces

/-!
# Words of a text

Every word is a stretch of the text whose classes have one of a few forms: it is not empty and holds
no separators.  The scan that cuts the words off only ever looks at classes of characters, so all of
this is about lists of classes first.
-/

namespace TargetSpans

namespace CharClass

theorem runLength_le (kind : CharClass) (classes : List CharClass) :
    kind.runLength classes ≤ classes.length :=
  (List.takeWhile_sublist _).length_le

theorem take_runLength (kind : CharClass) (classes : List CharClass) :
    classes.take (kind.runLength classes) = classes.takeWhile (· = kind) :=
  (List.prefix_iff_eq_take.mp (List.takeWhile_prefix _)).symm

theorem eq_of_mem_take_runLength {kind c : CharClass} {classes : List CharClass}
    (member : c ∈ classes.take (kind.runLength classes)) : c = kind := by
  rw [take_runLength] at member
  simpa using List.mem_takeWhile_imp member

end CharClass

namespace Piece

theorem capitalsLength_le (classes : List CharClass) :
    capitalsLength classes ≤ classes.length := by
  fun_induction capitalsLength classes with
  | case1 => exact Nat.zero_le _
  | case2 rest _ ih =>
      rw [List.length_cons]
      omega
  | case3 => exact Nat.zero_le _

theorem eq_upper_of_mem_take_capitalsLength {c : CharClass} {classes : List CharClass}
    (member : c ∈ classes.take (capitalsLength classes)) : c = .upper := by
  fun_induction capitalsLength classes with
  | case1 => simp at member
  | case2 rest _ ih =>
      rw [Nat.add_comm, List.take_succ_cons] at member
      rcases List.mem_cons.mp member with rfl | later
      · rfl
      · exact ih later
  | case3 => simp at member

theorem tailLength_le (first : CharClass) (classes : List CharClass) :
    tailLength first classes ≤ classes.length := by
  unfold tailLength
  split
  case h_1 rest =>
    have run := CharClass.lower.runLength_le rest
    rw [List.length_cons]
    omega
  case h_2 => exact capitalsLength_le classes
  case h_3 => exact CharClass.lower.runLength_le classes
  case h_4 => exact CharClass.digit.runLength_le classes
  case h_5 => exact Nat.zero_le _

end Piece

/-- The classes of a word: small letters, with a capital before them or not, capitals, or digits. -/
inductive WordForm : List CharClass → Prop
  | small {classes : List CharClass} (nonempty : classes ≠ [])
      (all : ∀ c ∈ classes, c = .lower) : WordForm classes
  | capitalised {classes : List CharClass} (nonempty : classes ≠ [])
      (all : ∀ c ∈ classes, c = .lower) : WordForm (.upper :: classes)
  | capitals {classes : List CharClass} (nonempty : classes ≠ [])
      (all : ∀ c ∈ classes, c = .upper) : WordForm classes
  | digits {classes : List CharClass} (nonempty : classes ≠ [])
      (all : ∀ c ∈ classes, c = .digit) : WordForm classes

namespace WordForm

variable {classes : List CharClass}

theorem ne_nil (form : WordForm classes) : classes ≠ [] := by
  cases form with
  | small nonempty => exact nonempty
  | capitalised => exact List.cons_ne_nil _ _
  | capitals nonempty => exact nonempty
  | digits nonempty => exact nonempty

theorem ne_separator (form : WordForm classes) : ∀ c ∈ classes, c ≠ .separator := by
  intro c member
  cases form with
  | small _ all => simp [all c member]
  | capitalised _ all =>
      rcases List.mem_cons.mp member with rfl | later
      · decide
      · simp [all c later]
  | capitals _ all => simp [all c member]
  | digits _ all => simp [all c member]

end WordForm

namespace Piece

/-- What the scan takes for a word, character by character. -/
theorem wordForm_take_tailLength {first : CharClass} (letter : first ≠ .separator)
    (rest : List CharClass) : WordForm (first :: rest.take (tailLength first rest)) := by
  unfold tailLength
  split
  case h_1 rest =>
    rw [Nat.add_comm, List.take_succ_cons]
    refine .capitalised (List.cons_ne_nil _ _) fun c member => ?_
    rcases List.mem_cons.mp member with rfl | later
    · rfl
    · exact CharClass.eq_of_mem_take_runLength later
  case h_2 =>
    refine .capitals (List.cons_ne_nil _ _) fun c member => ?_
    rcases List.mem_cons.mp member with rfl | later
    · rfl
    · exact eq_upper_of_mem_take_capitalsLength later
  case h_3 =>
    refine .small (List.cons_ne_nil _ _) fun c member => ?_
    rcases List.mem_cons.mp member with rfl | later
    · rfl
    · exact CharClass.eq_of_mem_take_runLength later
  case h_4 =>
    refine .digits (List.cons_ne_nil _ _) fun c member => ?_
    rcases List.mem_cons.mp member with rfl | later
    · rfl
    · exact CharClass.eq_of_mem_take_runLength later
  case h_5 => exact absurd rfl letter

/-- Where a word lies in a list of classes that is counted from `index`. -/
theorem exists_append_of_mem_wordsFrom {index : Nat} {classes : List CharClass} {p : Piece}
    (member : p ∈ wordsFrom index classes) :
    ∃ before word after, classes = before ++ word ++ after ∧
      p = ⟨index + before.length, index + before.length + word.length⟩ ∧ WordForm word := by
  fun_induction wordsFrom index classes with
  | case1 => simp at member
  | case2 index rest ih =>
      obtain ⟨before, word, after, rfl, rfl, form⟩ := ih member
      refine ⟨.separator :: before, word, after, rfl, ?_, form⟩
      simp only [List.length_cons, mk.injEq]
      omega
  | case3 index first rest letter tail ih =>
      have short : tail ≤ rest.length := tailLength_le first rest
      rcases List.mem_cons.mp member with rfl | later
      · refine ⟨[], first :: rest.take tail, rest.drop tail, ?_, ?_,
          wordForm_take_tailLength letter rest⟩
        · simp
        · simp only [List.length_nil, List.length_cons, List.length_take, mk.injEq]
          omega
      · obtain ⟨before, word, after, split, rfl, form⟩ := ih later
        refine ⟨first :: rest.take tail ++ before, word, after, ?_, ?_, form⟩
        · rw [List.append_assoc, List.append_assoc, ← List.append_assoc before, ← split]
          simp
        · simp only [List.length_append, List.length_cons, List.length_take, mk.injEq]
          omega

/-- A word of a text is a stretch of it whose classes have the form of a word. -/
theorem exists_wordForm_of_mem_words {t : Text} {p : Piece} (member : p ∈ words t) :
    ∃ before word after : Text, t = before ++ word ++ after ∧
      p = ⟨before.length, before.length + word.length⟩ ∧ WordForm (word.map CharClass.ofChar) := by
  obtain ⟨_, _, after, split, rfl, form⟩ := exists_append_of_mem_wordsFrom member
  obtain ⟨front, rest, rfl, cut, rfl⟩ := List.map_eq_append_iff.mp split
  obtain ⟨before, word, rfl, rfl, rfl⟩ := List.map_eq_append_iff.mp cut
  exact ⟨before, word, rest, rfl, by simp, form⟩

/-- A word of a text is a stretch of it without separators. -/
theorem exists_append_of_mem_words {t : Text} {p : Piece} (member : p ∈ words t) :
    ∃ before word after : Text, t = before ++ word ++ after ∧
      p = ⟨before.length, before.length + word.length⟩ ∧ word ≠ [] ∧
        ∀ c ∈ word, CharClass.ofChar c ≠ .separator := by
  obtain ⟨before, word, after, split, rfl, form⟩ := exists_wordForm_of_mem_words member
  refine ⟨before, word, after, split, rfl, ?_, ?_⟩
  · rintro rfl
    exact form.ne_nil rfl
  · exact fun c inside => form.ne_separator _ (List.mem_map_of_mem inside)

end Piece

end TargetSpans
