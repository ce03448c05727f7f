import Mathlib.Data.List.Forall2
import TargetSpans.Failure

/-!
# What answers promise

Resolution is written in a monad with two kinds of failure: a target may be refused, but a text
should never be asked something that has no answer.  `Yields` says both at once of an answer, that
it is defined and that its result, if there is one, has a property; each function of the resolution
then needs one such statement.
-/

namespace TargetSpans

namespace Answer

variable {α β γ : Type}

/-- An answer is not undefined, and its result has a property. -/
def Yields (P : α → Prop) : Answer α → Prop
  | .ok a => P a
  | .error (.refused _) => True
  | .error .undefined => False

theorem Yields.ne_undefined {P : α → Prop} {x : Answer α} (yields : Yields P x) :
    x ≠ .error .undefined := by
  rintro rfl
  exact yields

theorem Yields.isOk_or_refused {P : α → Prop} {x : Answer α} (yields : Yields P x) :
    (∃ a, x = .ok a) ∨ ∃ cause, x = refuse cause := by
  match x, yields with
  | .ok a, _ => exact Or.inl ⟨a, rfl⟩
  | .error (.refused cause), _ => exact Or.inr ⟨cause, rfl⟩

theorem Yields.of_eq_ok {P : α → Prop} {x : Answer α} (yields : Yields P x) {a : α}
    (equal : x = .ok a) : P a := by
  subst equal
  exact yields

theorem Yields.imp {P Q : α → Prop} {x : Answer α} (yields : Yields P x)
    (implies : ∀ a, P a → Q a) : Yields Q x := by
  match x, yields with
  | .ok a, yields => exact implies a yields
  | .error (.refused _), _ => trivial

theorem Yields.eq_ok {P : α → Prop} {x : Answer α} (yields : Yields P x) :
    Yields (fun a => x = .ok a) x := by
  match x, yields with
  | .ok a, _ => exact rfl
  | .error (.refused _), _ => trivial

theorem yields_ok {P : α → Prop} {a : α} (holds : P a) : Yields P (.ok a) :=
  holds

theorem yields_refuse (P : α → Prop) (cause : Refusal) : Yields P (refuse cause) :=
  trivial

theorem yields_ofOption {o : Option α} (known : ∃ a, o = some a) :
    Yields (fun a => o = some a) (ofOption o) := by
  obtain ⟨a, rfl⟩ := known
  exact yields_ok rfl

/-- What an answer yields, the next step may rely on. -/
theorem Yields.bind {P : α → Prop} {Q : β → Prop} {x : Answer α} {f : α → Answer β}
    (first : Yields P x) (next : ∀ a, P a → Yields Q (f a)) : Yields Q (x >>= f) := by
  match x, first with
  | .ok a, first => exact next a first
  | .error (.refused _), _ => trivial

theorem Yields.map {P : α → Prop} {Q : β → Prop} {x : Answer α} {f : α → β}
    (first : Yields P x) (next : ∀ a, P a → Q (f a)) : Yields Q (x >>= fun a => pure (f a)) :=
  first.bind fun a holds => yields_ok (next a holds)

/-- A traversal relates each member to its result. -/
theorem yields_mapM {R : α → β → Prop} {f : α → Answer β} {members : List α}
    (each : ∀ a ∈ members, Yields (R a) (f a)) :
    Yields (List.Forall₂ R members) (members.mapM f) := by
  induction members with
  | nil => exact List.Forall₂.nil
  | cons a rest ih =>
      rw [List.mapM_cons]
      have head := each a List.mem_cons_self
      have tail := ih fun b member => each b (List.mem_cons_of_mem a member)
      exact head.bind fun b related =>
        tail.map fun results relatedRest => List.Forall₂.cons related relatedRest

/-- Each result of a traversal comes from a member. -/
theorem exists_mem_of_forall₂ {R : α → β → Prop} {members : List α} {results : List β}
    (related : List.Forall₂ R members results) {b : β} (result : b ∈ results) :
    ∃ a ∈ members, R a b := by
  induction related with
  | nil => simp at result
  | cons head tail ih =>
      rcases List.mem_cons.mp result with rfl | later
      · exact ⟨_, List.mem_cons_self, head⟩
      · obtain ⟨a, member, holds⟩ := ih later
        exact ⟨a, List.mem_cons_of_mem _ member, holds⟩

theorem yields_mapM_forall {P : β → Prop} {f : α → Answer β} {members : List α}
    (each : ∀ a ∈ members, Yields P (f a)) :
    Yields (fun results => ∀ b ∈ results, P b) (members.mapM f) := by
  refine (yields_mapM (R := fun _ b => P b) each).imp fun results related b result => ?_
  obtain ⟨a, _, holds⟩ := exists_mem_of_forall₂ related result
  exact holds

theorem ofOption_eq_ok_iff {o : Option α} {a : α} : ofOption o = .ok a ↔ o = some a := by
  cases o <;> simp [ofOption]

theorem bind_eq_ok_iff {x : Answer α} {f : α → Answer β} {b : β} :
    x >>= f = .ok b ↔ ∃ a, x = .ok a ∧ f a = .ok b := by
  cases x with
  | error failure => simp [bind, Except.bind]
  | ok a => simp [bind, Except.bind]

theorem bind_eq_error_iff {x : Answer α} {f : α → Answer β} {failure : Failure} :
    x >>= f = .error failure ↔
      x = .error failure ∨ ∃ a, x = .ok a ∧ f a = .error failure := by
  cases x with
  | error found => simp [bind, Except.bind]
  | ok a => simp [bind, Except.bind]

theorem map_eq_ok_iff {f : α → β} {x : Answer α} {b : β} :
    f <$> x = .ok b ↔ ∃ a, x = .ok a ∧ f a = b := by
  cases x with
  | error failure => simp [Functor.map, Except.map]
  | ok a => simp [Functor.map, Except.map]

theorem map_eq_error_iff {f : α → β} {x : Answer α} {failure : Failure} :
    f <$> x = .error failure ↔ x = .error failure := by
  cases x with
  | error other => simp [Functor.map, Except.map]
  | ok a => simp [Functor.map, Except.map]

/-- A traversal succeeds exactly when it does so at each member. -/
theorem mapM_eq_ok_iff {f : α → Answer β} {members : List α} {results : List β} :
    members.mapM f = .ok results ↔
      List.Forall₂ (fun a b => f a = .ok b) members results := by
  induction members generalizing results with
  | nil => simp [pure, Except.pure, eq_comm]
  | cons a rest ih =>
      rw [List.mapM_cons, List.forall₂_cons_left_iff]
      cases head : f a with
      | error failure => simp [bind, Except.bind]
      | ok b =>
          simp only [← ih, Except.ok.injEq]
          cases tail : rest.mapM f with
          | error failure => simp [bind, Except.bind]
          | ok bs => simp [bind, Except.bind, pure, Except.pure, eq_comm]

theorem exists_mapM_eq_ok_iff {f : α → Answer β} {members : List α} :
    (∃ results, members.mapM f = .ok results) ↔ ∀ a ∈ members, ∃ b, f a = .ok b := by
  simp only [mapM_eq_ok_iff]
  induction members with
  | nil => simp
  | cons a rest ih =>
      rw [List.forall_mem_cons, ← ih]
      simp only [List.forall₂_cons_left_iff]
      constructor
      · rintro ⟨_, b, results, head, tail, _⟩
        exact ⟨⟨b, head⟩, results, tail⟩
      · rintro ⟨⟨b, head⟩, results, tail⟩
        exact ⟨b :: results, b, results, head, tail, rfl⟩

/-- A traversal depends on its step at the members only. -/
theorem mapM_congr {f g : α → Answer β} {members : List α} (equal : ∀ a ∈ members, f a = g a) :
    members.mapM f = members.mapM g := by
  induction members with
  | nil => rfl
  | cons a rest ih =>
      rw [List.mapM_cons, List.mapM_cons, equal a List.mem_cons_self,
        ih fun b member => equal b (List.mem_cons_of_mem a member)]

theorem mapM_append_eq_ok_iff {f : α → Answer β} {members others : List α} {results : List β} :
    (members ++ others).mapM f = .ok results ↔
      ∃ first second, members.mapM f = .ok first ∧ others.mapM f = .ok second ∧
        first ++ second = results := by
  simp only [List.mapM_append, bind_eq_ok_iff, pure, Except.pure, Except.ok.injEq]
  constructor
  · rintro ⟨first, one, second, other, joined⟩
    exact ⟨first, second, one, other, joined⟩
  · rintro ⟨first, second, one, other, joined⟩
    exact ⟨first, one, second, other, joined⟩

/-- The first member at which a step fails does so with the given failure. -/
def FailsFirst (f : α → Answer β) (members : List α) (failure : Failure) : Prop :=
  ∃ before a after, members = before ++ a :: after ∧
    (∀ b ∈ before, ∃ result, f b = .ok result) ∧ f a = .error failure

theorem failsFirst_cons_of_ok {f : α → Answer β} {a : α} {b : β} (head : f a = .ok b)
    {rest : List α} {failure : Failure} :
    FailsFirst f (a :: rest) failure ↔ FailsFirst f rest failure := by
  constructor
  · rintro ⟨before, x, after, split, succeed, fails⟩
    cases before with
    | nil =>
        obtain ⟨rfl, _⟩ := List.cons.inj split
        cases head.symm.trans fails
    | cons first before =>
        obtain ⟨rfl, below⟩ := List.cons.inj split
        refine ⟨before, x, after, below, ?_, fails⟩
        exact fun y member => succeed y (List.mem_cons_of_mem a member)
  · rintro ⟨before, x, after, rfl, succeed, fails⟩
    refine ⟨a :: before, x, after, rfl, ?_, fails⟩
    intro y member
    rcases List.mem_cons.mp member with rfl | later
    · exact ⟨b, head⟩
    · exact succeed y later

theorem failsFirst_cons_of_error {f : α → Answer β} {a : α} {found : Failure}
    (head : f a = .error found) {rest : List α} {failure : Failure} :
    FailsFirst f (a :: rest) failure ↔ found = failure := by
  constructor
  · rintro ⟨before, x, after, split, succeed, fails⟩
    cases before with
    | nil =>
        obtain ⟨rfl, _⟩ := List.cons.inj split
        exact Except.error.inj (head.symm.trans fails)
    | cons first before =>
        obtain ⟨rfl, _⟩ := List.cons.inj split
        obtain ⟨result, equal⟩ := succeed a List.mem_cons_self
        cases head.symm.trans equal
  · rintro rfl
    exact ⟨[], a, rest, rfl, by simp, head⟩

/-- A traversal fails exactly as the first member does at which it fails. -/
theorem mapM_eq_error_iff {f : α → Answer β} {members : List α} {failure : Failure} :
    members.mapM f = .error failure ↔ FailsFirst f members failure := by
  induction members with
  | nil => simp [FailsFirst, pure, Except.pure]
  | cons a rest ih =>
      rw [List.mapM_cons]
      cases head : f a with
      | error found =>
          rw [failsFirst_cons_of_error head]
          simp [bind, Except.bind]
      | ok b =>
          rw [failsFirst_cons_of_ok head, ← ih]
          cases tail : rest.mapM f with
          | error found => simp [bind, Except.bind]
          | ok bs => simp [bind, Except.bind, pure, Except.pure]

theorem failsFirst_pair_iff {f : α → Answer β} {a b : α} {failure : Failure} :
    FailsFirst f [a, b] failure ↔
      f a = .error failure ∨ (∃ result, f a = .ok result) ∧ f b = .error failure := by
  cases head : f a with
  | error found => simp [failsFirst_cons_of_error head]
  | ok result =>
      rw [failsFirst_cons_of_ok head, ← mapM_eq_error_iff, List.mapM_cons]
      cases last : f b with
      | error found => simp [bind, Except.bind]
      | ok other => simp [bind, Except.bind, pure, Except.pure]

/-- Changing each result of a traversal changes the results of the traversal. -/
theorem mapM_map_comp (f : α → Answer β) (g : β → γ) (members : List α) :
    members.mapM (fun a => g <$> f a) = List.map g <$> members.mapM f := by
  induction members with
  | nil => rfl
  | cons a rest ih =>
      simp only [List.mapM_cons, ih, map_bind, bind_map_left, map_pure, List.map_cons]

/-! ## Refusals -/

/-- An answer is refused, if at all, for a reason of some kind. -/
def RefusedFor (P : Refusal → Prop) (x : Answer α) : Prop :=
  ∀ cause, x = refuse cause → P cause

theorem refusedFor_ok (P : Refusal → Prop) (a : α) : RefusedFor P (.ok a) := by
  rintro cause ⟨⟩

theorem refusedFor_refuse {P : Refusal → Prop} {cause : Refusal} (holds : P cause) :
    RefusedFor P (refuse cause : Answer α) := by
  rintro _ ⟨⟩
  exact holds

theorem refusedFor_of_ne {P : Refusal → Prop} {x : Answer α} (never : ∀ cause, x ≠ refuse cause) :
    RefusedFor P x :=
  fun cause refused => absurd refused (never cause)

theorem refusedFor_ofOption (P : Refusal → Prop) (o : Option α) : RefusedFor P (ofOption o) :=
  refusedFor_of_ne fun _ => ofOption_ne_refuse o

theorem RefusedFor.bind {P : Refusal → Prop} {x : Answer α} {f : α → Answer β}
    (first : RefusedFor P x) (next : ∀ a, RefusedFor P (f a)) : RefusedFor P (x >>= f) := by
  intro cause refused
  rcases bind_eq_error_iff.mp refused with here | ⟨a, _, later⟩
  · exact first cause here
  · exact next a cause later

/-- A traversal is refused as one of its members is. -/
theorem refusedFor_mapM {P : Refusal → Prop} {f : α → Answer β} (each : ∀ a, RefusedFor P (f a))
    (members : List α) : RefusedFor P (members.mapM f) := by
  intro cause refused
  obtain ⟨_, a, _, _, _, here⟩ := mapM_eq_error_iff.mp refused
  exact each a cause here

end Answer

end TargetSpans
