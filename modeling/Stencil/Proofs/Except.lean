/-!
# Computations that may fail

One computation after another has a result if both have one, and fails if either fails.

## Main definitions

* `FailsOnly`: a computation that fails, if at all, in a way of a given kind
* `Corresponds`: two computations that fail alike, or have related results
* `CorrespondsUnless`: the same, except where the first one fails in a way that is excused
-/

namespace Stencil

variable {ε α β : Type} {x : Except ε α} {f : α → Except ε β} {b : β} {P : ε → Prop}

theorem bind_eq_ok_iff : (x >>= f) = .ok b ↔ ∃ a, x = .ok a ∧ f a = .ok b := by
  cases x with
  | error fault => simp [bind, Except.bind]
  | ok a => simp [bind, Except.bind]

theorem map_eq_ok_iff {g : α → β} : g <$> x = .ok b ↔ ∃ a, x = .ok a ∧ g a = b := by
  cases x with
  | error fault => simp [Functor.map, Except.map]
  | ok a => simp [Functor.map, Except.map]

theorem mapError_eq_ok_iff {ε' : Type} {g : ε → ε'} {a : α} : x.mapError g = .ok a ↔ x = .ok a := by
  cases x with
  | error fault => exact ⟨nofun, nofun⟩
  | ok b =>
    refine ⟨fun same => ?_, fun same => ?_⟩
    · exact congrArg Except.ok (Except.ok.inj same)
    · exact congrArg Except.ok (Except.ok.inj same)

/-- Steps are all done if each of them can be, and whether it can does not depend on the ones
before it. -/
theorem exists_foldlM_eq_ok_iff {step : β → α → Except ε β} {Possible : α → Prop} {as : List α}
    (possible : ∀ a ∈ as, ∀ b, (∃ b', step b a = .ok b') ↔ Possible a) (b : β) :
    (∃ b', as.foldlM step b = .ok b') ↔ ∀ a ∈ as, Possible a := by
  induction as generalizing b with
  | nil => exact ⟨fun _ => List.forall_mem_nil _, fun _ => ⟨b, rfl⟩⟩
  | cons a as ih =>
    obtain ⟨first, others⟩ := List.forall_mem_cons.mp possible
    simp only [List.foldlM_cons, List.forall_mem_cons, bind_eq_ok_iff]
    constructor
    · rintro ⟨b', next, isFirst, done⟩
      exact ⟨(first b).mp ⟨next, isFirst⟩, (ih others next).mp ⟨b', done⟩⟩
    · rintro ⟨here, later⟩
      obtain ⟨next, isFirst⟩ := (first b).mpr here
      obtain ⟨b', done⟩ := (ih others next).mpr later
      exact ⟨b', next, isFirst, done⟩

/-- Steps that have the same results, though they may fail in different ways, have the same results
one after another. -/
theorem foldlM_eq_ok_iff_of_forall {step step' : β → α → Except ε β}
    (same : ∀ b a b', step b a = .ok b' ↔ step' b a = .ok b') {as : List α} {b b' : β} :
    as.foldlM step b = .ok b' ↔ as.foldlM step' b = .ok b' := by
  induction as generalizing b with
  | nil => exact Iff.rfl
  | cons a as ih =>
    simp only [List.foldlM_cons, bind_eq_ok_iff]
    exact exists_congr fun next => and_congr (same b a next) ih

/-- What every step preserves is so after all of them. -/
theorem of_foldlM_eq_ok {step : β → α → Except ε β} {Holds : β → Prop} {as : List α}
    (preserves : ∀ a ∈ as, ∀ b b', Holds b → step b a = .ok b' → Holds b') {b b' : β}
    (holds : Holds b) (done : as.foldlM step b = .ok b') : Holds b' := by
  induction as generalizing b with
  | nil =>
    obtain rfl := Except.ok.inj done
    exact holds
  | cons a as ih =>
    obtain ⟨first, others⟩ := List.forall_mem_cons.mp preserves
    rw [List.foldlM_cons, bind_eq_ok_iff] at done
    obtain ⟨next, isFirst, done⟩ := done
    exact ih others (first b next holds isFirst) done

/-- If the computation fails, then in a way for which `P` holds. -/
def FailsOnly (P : ε → Prop) (x : Except ε α) : Prop := ∀ fault, x = .error fault → P fault

namespace FailsOnly

theorem ok (a : α) : FailsOnly P (.ok a) := by
  intro fault failed
  cases failed

theorem error {fault : ε} (holds : P fault) : FailsOnly P (.error fault : Except ε α) := by
  intro fault' failed
  cases failed
  exact holds

/-- The second computation need only be looked at for the result of the first. -/
theorem bind_of_ok (first : FailsOnly P x) (second : ∀ a, x = .ok a → FailsOnly P (f a)) :
    FailsOnly P (x >>= f) := by
  intro fault failed
  cases x with
  | error fault' => exact first fault (by simpa [Bind.bind, Except.bind] using failed)
  | ok a => exact second a rfl fault failed

theorem bind (first : FailsOnly P x) (second : ∀ a, FailsOnly P (f a)) : FailsOnly P (x >>= f) :=
  first.bind_of_ok fun a _ => second a

theorem map (holds : FailsOnly P x) (g : α → β) : FailsOnly P (g <$> x) := by
  cases x with
  | error fault => exact error (holds fault rfl)
  | ok a => exact ok (g a)

end FailsOnly

variable {α' β' : Type} {y : Except ε α'}
  {R : α → α' → Prop} {S : β → β' → Prop} {g : α' → Except ε β'}

/-- The computations fail in the same way, or have results that `R` relates. -/
inductive Corresponds (R : α → α' → Prop) : Except ε α → Except ε α' → Prop where
  | error (fault : ε) : Corresponds R (.error fault) (.error fault)
  | ok {a : α} {a' : α'} (related : R a a') : Corresponds R (.ok a) (.ok a')

theorem Corresponds.refl {R : α → α → Prop} (related : ∀ a, R a a) (x : Except ε α) :
    Corresponds R x x := by
  cases x with
  | error fault => exact .error fault
  | ok a => exact .ok (related a)

theorem Corresponds.error_or_ok (corresponds : Corresponds R x y) :
    (∃ fault, x = .error fault ∧ y = .error fault) ∨ ∃ a a', x = .ok a ∧ y = .ok a' ∧ R a a' := by
  cases corresponds with
  | error fault => exact .inl ⟨fault, rfl, rfl⟩
  | ok related => exact .inr ⟨_, _, rfl, rfl, related⟩

/-- Computations whose results are mapped to the same value correspond. -/
theorem Corresponds.of_map_eq {f : α → β} {g : α' → β} (same : x.map f = y.map g) :
    Corresponds (fun a a' => f a = g a') x y := by
  cases x with
  | error fault =>
    cases y with
    | error fault' =>
      obtain rfl := Except.error.inj same
      exact .error fault
    | ok a' => cases same
  | ok a =>
    cases y with
    | error fault' => cases same
    | ok a' => exact .ok (Except.ok.inj same)

theorem Corresponds.bind (first : Corresponds R x y)
    (second : ∀ a a', R a a' → Corresponds S (f a) (g a')) :
    Corresponds S (x >>= f) (y >>= g) := by
  cases first with
  | error fault => exact .error fault
  | ok related => exact second _ _ related

theorem Corresponds.map (corresponds : Corresponds R x y) {f : α → β} {g : α' → β'}
    (related : ∀ a a', R a a' → S (f a) (g a')) : Corresponds S (x.map f) (y.map g) := by
  cases corresponds with
  | error fault => exact .error fault
  | ok isRelated => exact .ok (related _ _ isRelated)

theorem Corresponds.mapError {ε' : Type} (corresponds : Corresponds R x y) (f : ε → ε') :
    Corresponds R (x.mapError f) (y.mapError f) := by
  cases corresponds with
  | error fault => exact .error (f fault)
  | ok related => exact .ok related

/-- Steps that correspond one by one, each up to a condition, correspond up to all conditions. -/
theorem Corresponds.foldlM {R : Prop → β → β' → Prop} {step : β → α → Except ε β}
    {step' : β' → α → Except ε β'} {holds : α → Prop} {as : List α}
    (each : ∀ a ∈ as, ∀ same b b', R same b b' →
      Corresponds (R (same ∧ holds a)) (step b a) (step' b' a))
    {same : Prop} {b : β} {b' : β'} (related : R same b b') :
    Corresponds (R (same ∧ ∀ a ∈ as, holds a)) (as.foldlM step b) (as.foldlM step' b') := by
  induction as generalizing same b b' with
  | nil =>
    rw [eq_true (List.forall_mem_nil holds), and_true]
    exact .ok related
  | cons a as ih =>
    obtain ⟨first, others⟩ := List.forall_mem_cons.mp each
    rw [List.foldlM_cons, List.foldlM_cons, List.forall_mem_cons, ← and_assoc]
    exact (first same b b' related).bind fun next next' isNext => ih others isNext

variable {excused : ε → Prop}

/-- The first computation fails in a way that is excused, or the computations fail in the same way,
or they have results that `R` relates. -/
inductive CorrespondsUnless (excused : ε → Prop) (R : α → α' → Prop) :
    Except ε α → Except ε α' → Prop where
  | excused {fault : ε} (isExcused : excused fault) (y : Except ε α') :
    CorrespondsUnless excused R (.error fault) y
  | error (fault : ε) : CorrespondsUnless excused R (.error fault) (.error fault)
  | ok {a : α} {a' : α'} (related : R a a') : CorrespondsUnless excused R (.ok a) (.ok a')

theorem CorrespondsUnless.refl {R : α → α → Prop} (related : ∀ a, R a a) (x : Except ε α) :
    CorrespondsUnless excused R x x := by
  cases x with
  | error fault => exact .error fault
  | ok a => exact .ok (related a)

/-- With nothing excused, the computations correspond. -/
theorem correspondsUnless_false_iff :
    CorrespondsUnless (fun _ => False) R x y ↔ Corresponds R x y := by
  constructor
  · intro corresponds
    cases corresponds with
    | excused isExcused y => exact isExcused.elim
    | error fault => exact .error fault
    | ok related => exact .ok related
  · intro corresponds
    cases corresponds with
    | error fault => exact .error fault
    | ok related => exact .ok related

theorem CorrespondsUnless.bind (first : CorrespondsUnless excused R x y)
    (second : ∀ a a', R a a' → CorrespondsUnless excused S (f a) (g a')) :
    CorrespondsUnless excused S (x >>= f) (y >>= g) := by
  cases first with
  | excused isExcused y => exact .excused isExcused _
  | error fault => exact .error fault
  | ok related => exact second _ _ related

end Stencil
