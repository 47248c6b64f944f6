/-
HostTrust.Proofs.Outcome — what a computation that may fail has done once it
is known to have succeeded.

Each lemma reads a success backwards through one way of putting computations
together: a sequence succeeded because each step did, a list was mapped because
each member was (`mapM_eq_ok_iff`, member by member). Failures are read the same
way, down to the first step that fails (`mapM_eq_error_iff`). With them a later
proof takes a `do` block apart step by step and never unfolds the monad.
-/
import HostTrust.Verifier
import Mathlib.Data.List.Forall2

namespace HostTrust.Outcome

variable {ε ε' α β : Type}

@[simp] theorem pure_eq_ok_iff {a b : α} : (pure a : Except ε α) = .ok b ↔ a = b := by
  simp [pure, Except.pure]

@[simp] theorem throw_ne_ok {e : ε} {a : α} : (throw e : Except ε α) ≠ .ok a := by
  simp [throw, throwThe, MonadExceptOf.throw]

/-- A sequence succeeds exactly when its steps succeed in turn. -/
@[simp] theorem bind_eq_ok_iff {x : Except ε α} {f : α → Except ε β} {b : β} :
    (x >>= f) = .ok b ↔ ∃ a, x = .ok a ∧ f a = .ok b := by
  cases x <;> simp [bind, Except.bind]

@[simp] theorem map_eq_ok_iff {x : Except ε α} {f : α → β} {b : β} :
    (f <$> x) = .ok b ↔ ∃ a, x = .ok a ∧ f a = b := by
  cases x <;> simp [Functor.map, Except.map]

/-- Renaming errors touches no success. -/
@[simp] theorem mapError_eq_ok_iff {x : Except ε α} {f : ε → ε'} {a : α} :
    x.mapError f = .ok a ↔ x = .ok a := by
  cases x <;> simp [Except.mapError]

@[simp] theorem toOption_eq_some_iff {x : Except ε α} {a : α} :
    x.toOption = some a ↔ x = .ok a := by
  cases x <;> simp [Except.toOption]

/-! ## Failures -/

@[simp] theorem pure_ne_error {a : α} {e : ε} : (pure a : Except ε α) ≠ .error e := by
  simp [pure, Except.pure]

/-- A sequence fails with the first of its steps that fails. -/
@[simp] theorem bind_eq_error_iff {x : Except ε α} {f : α → Except ε β} {e : ε} :
    (x >>= f) = .error e ↔ x = .error e ∨ ∃ a, x = .ok a ∧ f a = .error e := by
  cases x <;> simp [bind, Except.bind]

@[simp] theorem map_eq_error_iff {x : Except ε α} {f : α → β} {e : ε} :
    (f <$> x) = .error e ↔ x = .error e := by
  cases x <;> simp [Functor.map, Except.map]

/-! ## Lists of computations -/

/-- A list is mapped exactly when each member is, in place. -/
theorem mapM_eq_ok_iff {f : α → Except ε β} {xs : List α} {ys : List β} :
    xs.mapM f = .ok ys ↔ List.Forall₂ (fun x y => f x = .ok y) xs ys := by
  induction xs generalizing ys with
  | nil => cases ys <;> simp
  | cons x xs ih =>
    simp only [List.mapM_cons, bind_eq_ok_iff, pure_eq_ok_iff]
    constructor
    · rintro ⟨y, hy, rest, hrest, rfl⟩
      exact .cons hy (ih.mp hrest)
    · rintro (_ | ⟨hy, hrest⟩)
      exact ⟨_, hy, _, ih.mpr hrest, rfl⟩

/-- A list is not mapped because of the first member that is not, whatever comes after it. -/
theorem mapM_eq_error_iff {f : α → Except ε β} {xs : List α} {e : ε} :
    xs.mapM f = .error e ↔ ∃ before x after, xs = before ++ x :: after ∧
      (∀ y ∈ before, ∃ b, f y = .ok b) ∧ f x = .error e := by
  induction xs with
  | nil => simp
  | cons x xs ih =>
    simp only [List.mapM_cons, bind_eq_error_iff, pure_ne_error, and_false, exists_false,
      or_false, ih]
    constructor
    · rintro (hx | ⟨b, hb, before, y, after, rfl, ok, hy⟩)
      · exact ⟨[], x, xs, rfl, by simp, hx⟩
      · exact ⟨x :: before, y, after, rfl, List.forall_mem_cons.mpr ⟨⟨b, hb⟩, ok⟩, hy⟩
    · rintro ⟨before, y, after, split, ok, hy⟩
      cases before with
      | nil =>
        obtain ⟨rfl, -⟩ := List.cons.inj split
        exact .inl hy
      | cons z before =>
        obtain ⟨rfl, rfl⟩ := List.cons.inj split
        obtain ⟨⟨b, hb⟩, rest⟩ := List.forall_mem_cons.mp ok
        exact .inr ⟨b, hb, before, y, after, rfl, rest, hy⟩

/-- A list is mapped if no member stands in the way. -/
theorem exists_mapM_ok_iff {f : α → Except ε β} {xs : List α} :
    (∃ ys, xs.mapM f = .ok ys) ↔ ∀ x ∈ xs, ∃ y, f x = .ok y := by
  induction xs with
  | nil => simp
  | cons x xs ih =>
    simp only [List.mapM_cons, bind_eq_ok_iff, pure_eq_ok_iff, List.forall_mem_cons, ← ih]
    constructor
    · rintro ⟨_, y, hy, ys, hys, -⟩
      exact ⟨⟨y, hy⟩, ys, hys⟩
    · rintro ⟨⟨y, hy⟩, ys, hys⟩
      exact ⟨_, y, hy, ys, hys, rfl⟩

theorem mapM_append_eq_ok_iff {f : α → Except ε β} {xs ys : List α} {zs : List β} :
    (xs ++ ys).mapM f = .ok zs ↔
      ∃ as bs, xs.mapM f = .ok as ∧ ys.mapM f = .ok bs ∧ as ++ bs = zs := by
  simp only [List.mapM_append, bind_eq_ok_iff, pure_eq_ok_iff]
  constructor
  · rintro ⟨as, has, bs, hbs, rfl⟩
    exact ⟨as, bs, has, hbs, rfl⟩
  · rintro ⟨as, bs, has, hbs, rfl⟩
    exact ⟨as, has, bs, hbs, rfl⟩

/-- What is done to each result is done to the list of results. -/
theorem mapM_map_result {γ : Type} (g : β → γ) (f : α → Except ε β) (xs : List α) :
    (xs.mapM fun x => g <$> f x) = List.map g <$> xs.mapM f := by
  induction xs with
  | nil => rfl
  | cons x xs ih =>
    rw [List.mapM_cons, List.mapM_cons, ih]
    cases f x with
    | error e => rfl
    | ok b => cases xs.mapM f <;> rfl

/-- Functions that agree on the members map a list alike. -/
theorem mapM_congr {f g : α → Except ε β} {xs : List α} (same : ∀ x ∈ xs, f x = g x) :
    xs.mapM f = xs.mapM g := by
  induction xs with
  | nil => rfl
  | cons x xs ih =>
    rw [List.mapM_cons, List.mapM_cons, same x (.head _), ih fun y hy => same y (.tail _ hy)]

/-- What a success is, told by evaluating it. -/
theorem exists_ok_of_map_eq_some {x : Except ε α} {p : α → Bool}
    (h : x.toOption.map p = some true) : ∃ a, x = .ok a ∧ p a = true := by
  cases x with
  | error e => simp [Except.toOption] at h
  | ok a => exact ⟨a, rfl, by simpa [Except.toOption] using h⟩

/-- What a failure is, told by evaluating it. -/
theorem exists_error_of_match {x : Except ε α} {p : ε → Bool}
    (h : (match x with | .error e => p e | .ok _ => false) = true) :
    ∃ e, x = .error e ∧ p e = true := by
  cases x with
  | error e => exact ⟨e, rfl, h⟩
  | ok a => simp at h

/-! ## Computations with one result -/

/-- Both computations fail, perhaps for different reasons, or both succeed with the same. -/
def SameResult (x y : Except ε α) : Prop := x.toOption = y.toOption

namespace SameResult

variable {x y : Except ε α}

theorem refl (x : Except ε α) : SameResult x x := rfl

theorem of_errors (e e' : ε) : SameResult (.error e : Except ε α) (.error e') := rfl

/-- Two computations with the same result, seen at once. -/
theorem cases (h : SameResult x y) :
    (∃ a, x = .ok a ∧ y = .ok a) ∨ ∃ e e', x = .error e ∧ y = .error e' := by
  cases x with
  | error e =>
    cases y with
    | error e' => exact .inr ⟨e, e', rfl, rfl⟩
    | ok b => cases h
  | ok a =>
    cases y with
    | error e' => cases h
    | ok b =>
      obtain rfl : a = b := Option.some.inj h
      exact .inl ⟨a, rfl, rfl⟩

theorem bind (first : SameResult x y) {f g : α → Except ε β} (next : ∀ a, SameResult (f a) (g a)) :
    SameResult (x >>= f) (y >>= g) := by
  rcases first.cases with ⟨a, rfl, rfl⟩ | ⟨e, e', rfl, rfl⟩
  · exact next a
  · rfl

theorem map (h : SameResult x y) (f : α → β) : SameResult (f <$> x) (f <$> y) := by
  rcases h.cases with ⟨a, rfl, rfl⟩ | ⟨e, e', rfl, rfl⟩ <;> rfl

end SameResult

/-! ## Computations without effects -/

section

variable {x : ExceptT ε Id α}

/-- Without effects, a sequence of computations is the sequence of their outcomes. -/
@[simp] theorem run_bind_eq (f : α → ExceptT ε Id β) :
    (x >>= f).run = Bind.bind (m := Except ε) x.run fun a => (f a).run := by
  rw [ExceptT.run_bind]
  cases x.run <;> rfl

@[simp] theorem run_pure_eq (a : α) :
    (pure a : ExceptT ε Id α).run = Pure.pure (f := Except ε) a :=
  rfl

@[simp] theorem run_liftExcept_eq (x : Except ε α) :
    (liftExcept x : ExceptT ε Id α).run = x := by
  cases x <;> rfl

end

/-! ## Lists that correspond member by member -/

section Correspondence

variable {R : α → β → Prop} {xs : List α} {ys : List β}

theorem exists_right_of_mem (h : List.Forall₂ R xs ys) {x : α} (hx : x ∈ xs) :
    ∃ y ∈ ys, R x y := by
  induction h with
  | nil => cases hx
  | cons hxy _ ih =>
    rcases List.mem_cons.mp hx with rfl | hx
    · exact ⟨_, List.mem_cons_self, hxy⟩
    · obtain ⟨y, hy, hr⟩ := ih hx
      exact ⟨y, List.mem_cons_of_mem _ hy, hr⟩

theorem exists_left_of_mem (h : List.Forall₂ R xs ys) {y : β} (hy : y ∈ ys) :
    ∃ x ∈ xs, R x y :=
  exists_right_of_mem h.flip hy

/-- What holds of a member exactly when something holds of its partner holds of
all members exactly when that holds of all partners. -/
theorem forall_mem_iff_of_forall₂ {P : α → Prop} {Q : β → Prop}
    (h : List.Forall₂ R xs ys) (same : ∀ x y, R x y → (P x ↔ Q y)) :
    (∀ x ∈ xs, P x) ↔ ∀ y ∈ ys, Q y := by
  constructor
  · intro hP y hy
    obtain ⟨x, hx, hr⟩ := exists_left_of_mem h hy
    exact (same x y hr).mp (hP x hx)
  · intro hQ x hx
    obtain ⟨y, hy, hr⟩ := exists_right_of_mem h hx
    exact (same x y hr).mpr (hQ y hy)

end Correspondence

end HostTrust.Outcome
