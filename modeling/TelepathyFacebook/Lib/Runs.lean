import Mathlib.Tactic.Common

/-!
# Runs of a state machine

A machine is a step function `step : σ → ε → σ`; a run is a list of events, and
the state it ends in is `es.foldl step s`.  This file holds the induction rules
used on such runs, each of them once:

* `Always P` says that `P` holds in every state a run passes through, the first
  one included, and `Steps ok` that every event of the run meets `ok` in the
  state it is taken in;
* `Steps.always` is the invariant rule, and `foldl_iff` / `always_iff` are its
  exact form, for a property that no step can restore once it is lost;
* `outputs` collects what a machine answers, and `Simulates.outputs_eq` is
  forward simulation.

A machine that can crash is one on `Option σ` (`crashing`), where `none` is the
crashed state.  Nothing here is about a particular program.
-/

universe u v w x

namespace Runs

variable {σ : Type u} {ε : Type v}

/-- Every event of the run meets `ok` in the state it is taken in. -/
def Steps (step : σ → ε → σ) (ok : σ → ε → Prop) : σ → List ε → Prop
  | _, [] => True
  | s, e :: es => ok s e ∧ Steps step ok (step s e) es

/-- `P` holds in every state the run passes through. -/
def Always (step : σ → ε → σ) (P : σ → Prop) : σ → List ε → Prop
  | s, [] => P s
  | s, e :: es => P s ∧ Always step P (step s e) es

variable {step : σ → ε → σ} {ok : σ → ε → Prop} {P Q : σ → Prop}

@[simp] theorem steps_nil (s : σ) : Steps step ok s [] := trivial

@[simp] theorem steps_cons (s : σ) (e : ε) (es : List ε) :
    Steps step ok s (e :: es) ↔ ok s e ∧ Steps step ok (step s e) es := Iff.rfl

@[simp] theorem always_nil (s : σ) : Always step P s [] ↔ P s := Iff.rfl

@[simp] theorem always_cons (s : σ) (e : ε) (es : List ε) :
    Always step P s (e :: es) ↔ P s ∧ Always step P (step s e) es := Iff.rfl

/-- A run is as good as its parts. -/
theorem steps_append (s : σ) (es es' : List ε) :
    Steps step ok s (es ++ es') ↔ Steps step ok s es ∧ Steps step ok (es.foldl step s) es' := by
  induction es generalizing s with
  | nil => simp
  | cons e es ih => rw [List.cons_append, steps_cons, steps_cons, ih, List.foldl_cons, and_assoc]

/-- A condition that always holds is met along every run. -/
theorem steps_of_forall (h : ∀ s e, ok s e) (s : σ) (es : List ε) : Steps step ok s es := by
  induction es generalizing s with
  | nil => trivial
  | cons e es ih => exact ⟨h s e, ih _⟩

/-- Steps that meet a condition meet every weaker one. -/
theorem Steps.mono {ok' : σ → ε → Prop} (h : ∀ s e, ok s e → ok' s e) {s : σ} {es : List ε}
    (hes : Steps step ok s es) : Steps step ok' s es := by
  induction es generalizing s with
  | nil => trivial
  | cons e es ih => exact ⟨h s e hes.1, ih hes.2⟩

/-- The steps of a run, seen through a map of the states. -/
theorem steps_map {α : Type w} {astep : α → ε → α} {aok : α → ε → Prop} {f : σ → α}
    (hf : ∀ s e, f (step s e) = astep (f s) e) (s : σ) (es : List ε) :
    Steps astep aok (f s) es ↔ Steps step (fun s e ↦ aok (f s) e) s es := by
  induction es generalizing s with
  | nil => exact Iff.rfl
  | cons e es ih => rw [steps_cons, steps_cons, ← hf, ih]

/-- What always holds holds at the start. -/
theorem Always.head {s : σ} {es : List ε} (h : Always step P s es) : P s := by
  cases es with
  | nil => exact h
  | cons e es => exact h.1

/-- What always holds holds at the end. -/
theorem Always.last {s : σ} {es : List ε} (h : Always step P s es) : P (es.foldl step s) := by
  induction es generalizing s with
  | nil => exact h
  | cons e es ih => exact ih h.2

theorem Always.mono (h : ∀ s, P s → Q s) {s : σ} {es : List ε} (hs : Always step P s es) :
    Always step Q s es := by
  induction es generalizing s with
  | nil => exact h s hs
  | cons e es ih => exact ⟨h s hs.1, ih hs.2⟩

/-! ## Invariants -/

/-- **The invariant rule.**  What holds at the start and is kept by every step
that meets `ok` holds in every state of a run whose steps all do. -/
theorem Steps.always (hstep : ∀ s e, P s → ok s e → P (step s e)) {s : σ} (hs : P s)
    {es : List ε} (hes : Steps step ok s es) : Always step P s es := by
  induction es generalizing s with
  | nil => exact hs
  | cons e es ih => exact ⟨hs, ih (hstep s e hs hes.1) hes.2⟩

/-- The invariant rule for steps that need no condition. -/
theorem foldl_invariant (hstep : ∀ s e, P s → P (step s e)) {s : σ} (hs : P s)
    (es : List ε) : P (es.foldl step s) := by
  induction es generalizing s with
  | nil => exact hs
  | cons e es ih => exact ih (hstep s e hs)

/-- **The exact rule.**  Let a step keep `Q`, given the invariant `P`, exactly
when `Q` held before it and the step meets `ok`.  Then `Q` holds at the end of a
run exactly when it held at the start and every step meets `ok`. -/
theorem foldl_iff (hinv : ∀ s e, P s → P (step s e))
    (hstep : ∀ s e, P s → (Q (step s e) ↔ Q s ∧ ok s e)) {s : σ} (hs : P s) (es : List ε) :
    Q (es.foldl step s) ↔ Q s ∧ Steps step ok s es := by
  induction es generalizing s with
  | nil => simp
  | cons e es ih =>
      rw [List.foldl_cons, ih (hinv s e hs), hstep s e hs, steps_cons, and_assoc]

/-- The exact rule, for every state on the way of a run whose steps meet `keep`: here the
step is looked at only where `Q` held before it. -/
theorem Steps.always_iff {keep : σ → ε → Prop} (hinv : ∀ s e, P s → keep s e → P (step s e))
    (hstep : ∀ s e, P s → keep s e → Q s → (Q (step s e) ↔ ok s e)) {s : σ} (hs : P s)
    (hq : Q s) {es : List ε} (hes : Steps step keep s es) :
    Always step Q s es ↔ Steps step ok s es := by
  induction es generalizing s with
  | nil => simpa using hq
  | cons e es ih =>
      have hs' : P (step s e) := hinv s e hs hes.1
      rw [always_cons, steps_cons, and_iff_right hq, ← hstep s e hs hes.1 hq]
      constructor
      · intro h
        have hq' : Q (step s e) := h.head
        exact ⟨hq', (ih hs' hq' hes.2).mp h⟩
      · rintro ⟨hq', h⟩
        exact (ih hs' hq' hes.2).mpr h

/-- The same for steps that need no condition to keep the invariant. -/
theorem always_iff (hinv : ∀ s e, P s → P (step s e))
    (hstep : ∀ s e, P s → Q s → (Q (step s e) ↔ ok s e)) {s : σ} (hs : P s) (hq : Q s)
    (es : List ε) : Always step Q s es ↔ Steps step ok s es :=
  Steps.always_iff (fun s e h _ ↦ hinv s e h) (fun s e h _ ↦ hstep s e h) hs hq
    (steps_of_forall (fun _ _ ↦ trivial) s es)

/-- The exact rule for a property of the steps themselves: where the invariant `P`
holds, a step is `good` exactly when it meets `ok`, and such a step keeps `P`. -/
theorem steps_iff {good : σ → ε → Prop} (hinv : ∀ s e, P s → ok s e → P (step s e))
    (hstep : ∀ s e, P s → (good s e ↔ ok s e)) {s : σ} (hs : P s) (es : List ε) :
    Steps step good s es ↔ Steps step ok s es := by
  induction es generalizing s with
  | nil => exact Iff.rfl
  | cons e es ih =>
      rw [steps_cons, steps_cons, hstep s e hs]
      exact and_congr_right fun he ↦ ih (hinv s e hs he)

/-! ## Machines that can crash -/

/-- The machine that stays crashed once `step` has returned `none`. -/
def crashing (step : σ → ε → Option σ) (s : Option σ) (e : ε) : Option σ := s.bind (step · e)

@[simp] theorem crashing_some (step : σ → ε → Option σ) (s : σ) (e : ε) :
    crashing step (some s) e = step s e := rfl

@[simp] theorem crashing_none (step : σ → ε → Option σ) (e : ε) :
    crashing step none e = none := rfl

theorem foldl_crashing_none (step : σ → ε → Option σ) (es : List ε) :
    es.foldl (crashing step) none = none :=
  foldl_invariant (P := fun t : Option σ ↦ t = none)
    (fun t e (ht : t = none) ↦ by rw [ht, crashing_none]) rfl es

/-- What a step leads to holds after it, where the machine has not crashed. -/
theorem forall_mem_crashing {step : σ → ε → Option σ} {t : Option σ} {e : ε}
    (h : ∀ s ∈ t, ∀ s', step s e = some s' → P s') : ∀ s' ∈ crashing step t e, P s' := by
  intro s' hs'
  obtain ⟨s, hs, hs'⟩ := Option.bind_eq_some_iff.mp hs'
  exact h s hs s' hs'

/-- What every step keeps holds at the end of a run that does not crash. -/
theorem foldl_crashing_invariant {step : σ → ε → Option σ}
    (h : ∀ s e s', P s → step s e = some s' → P s') {s : σ} (hs : P s) (es : List ε) :
    ∀ s' ∈ es.foldl (crashing step) (some s), P s' := by
  refine foldl_invariant (P := fun t : Option σ ↦ ∀ s' ∈ t, P s')
    (fun t e ht ↦ forall_mem_crashing fun s hs s' hs' ↦ h s e s' (ht s hs) hs') ?_ es
  rintro _ ⟨⟩
  exact hs

/-- A relation that each round of two loops keeps, the first of which can crash, holds
when both are through. -/
theorem foldlM_rel {α : Type w} {R : σ → α → Prop} {f : σ → ε → Option σ} {g : α → ε → α}
    (h : ∀ s a e s', R s a → f s e = some s' → R s' (g a e)) {s s' : σ} {a : α} {l : List ε}
    (hR : R s a) (hl : l.foldlM f s = some s') : R s' (l.foldl g a) := by
  induction l generalizing s a with
  | nil =>
      obtain rfl : s = s' := by simpa using hl
      exact hR
  | cons e l ih =>
      obtain ⟨m, hm, hl⟩ := Option.bind_eq_some_iff.mp hl
      exact ih (h _ _ _ _ hR hm) hl

/-- What each round of a loop keeps holds when it is through. -/
theorem foldlM_invariant {f : σ → ε → Option σ} (h : ∀ s e s', P s → f s e = some s' → P s')
    {s s' : σ} {l : List ε} (hs : P s) (hl : l.foldlM f s = some s') : P s' :=
  foldlM_rel (R := fun s (_ : Unit) ↦ P s) (g := fun _ _ ↦ ()) (a := ())
    (fun s _ e s' hP hf ↦ h s e s' hP hf) hs hl

/-- A loop goes through when each of its rounds does: in every state that the
invariant `P` allows, let a round on `a` go through exactly when `p a`. -/
theorem isSome_foldlM_of_invariant {f : σ → ε → Option σ} {p : ε → Prop}
    (hinv : ∀ s a s', P s → f s a = some s' → P s')
    (h : ∀ s a, P s → ((f s a).isSome ↔ p a)) {s : σ} (hs : P s) (l : List ε) :
    (l.foldlM f s).isSome ↔ ∀ a ∈ l, p a := by
  induction l generalizing s with
  | nil => simp
  | cons a l ih =>
      rw [List.forall_mem_cons, List.foldlM_cons, ← h s a hs]
      cases hf : f s a with
      | none => simp
      | some s' => simpa using ih (hinv s a s' hs hf)

/-- The same for rounds that do not depend on the state. -/
theorem isSome_foldlM {f : σ → ε → Option σ} {p : ε → Prop} (h : ∀ s a, (f s a).isSome ↔ p a)
    (s : σ) (l : List ε) : (l.foldlM f s).isSome ↔ ∀ a ∈ l, p a :=
  isSome_foldlM_of_invariant (P := fun _ ↦ True) (fun _ _ _ _ _ ↦ trivial)
    (fun s a _ ↦ h s a) trivial l

/-- If a step goes through exactly when it meets `ok`, a run goes through exactly
when all its steps do. -/
theorem isSome_foldl_crashing {step : σ → ε → Option σ} {ok : σ → ε → Prop}
    (h : ∀ s e, (step s e).isSome ↔ ok s e) (s : σ) (es : List ε) :
    (es.foldl (crashing step) (some s)).isSome ↔
      Steps (crashing step) (fun t e ↦ ∀ s ∈ t, ok s e) (some s) es := by
  have hstep : ∀ t e, True →
      ((crashing step t e).isSome ↔ t.isSome ∧ ∀ s ∈ t, ok s e) := by
    intro t e _
    cases t with
    | none => simp
    | some t => simpa using h t e
  simpa using foldl_iff (P := fun _ ↦ True) (Q := fun t : Option σ ↦ (t.isSome : Prop))
    (fun _ _ _ ↦ trivial) hstep (s := some s) trivial es

/-- In the states that the invariant `P` allows, let a step that meets `keep` go through exactly
when it meets `ok`.  Then a run whose steps all meet `keep` goes through exactly when all of them
meet `ok`, and `P` holds where it ends. -/
theorem isSome_foldl_crashing_of_invariant {step : σ → ε → Option σ} {keep ok : σ → ε → Prop}
    (hinv : ∀ s e s', P s → keep s e → step s e = some s' → P s')
    (h : ∀ s e, P s → keep s e → ((step s e).isSome ↔ ok s e)) {s : σ} (hs : P s) {es : List ε}
    (hes : Steps (crashing step) (fun t e ↦ ∀ s ∈ t, keep s e) (some s) es) :
    ((es.foldl (crashing step) (some s)).isSome ↔
      Steps (crashing step) (fun t e ↦ ∀ s ∈ t, ok s e) (some s) es) ∧
      ∀ s' ∈ es.foldl (crashing step) (some s), P s' := by
  induction es generalizing s with
  | nil =>
      refine ⟨iff_of_true rfl trivial, ?_⟩
      rintro _ ⟨⟩
      exact hs
  | cons e es ih =>
      obtain ⟨he, hes⟩ := hes
      have hkeep : keep s e := he s rfl
      have hok : (∀ s' ∈ some s, ok s' e) ↔ ok s e := by simp
      rw [crashing_some] at hes
      rw [List.foldl_cons, crashing_some, steps_cons, crashing_some, hok, ← h s e hs hkeep]
      cases hs' : step s e with
      | none =>
          rw [foldl_crashing_none]
          exact ⟨iff_of_false Bool.false_ne_true fun h ↦ Bool.false_ne_true h.1,
            fun _ h ↦ absurd h (by simp)⟩
      | some s' =>
          rw [hs'] at hes
          rw [and_iff_right Option.isSome_some]
          exact ih (hinv s e s' hs hkeep hs') hes

/-- Forward simulation of a machine that can crash by another.  In the states that the
invariant `P` allows, let neither step crash where `keep` is met, and keep the relation `R`.
Then neither machine crashes in a run whose steps meet `keep`, and they end related. -/
theorem crashing_simulation {α : Type w} {φ : Type x} {R : σ → α → Prop} {keep : σ → ε → Prop}
    {step : σ → ε → Option σ} {astep : α → φ → Option α} {f : ε → φ}
    (h : ∀ s a e, P s → R s a → keep s e →
      ∃ s' a', step s e = some s' ∧ P s' ∧ astep a (f e) = some a' ∧ R s' a')
    {s : σ} {a : α} (hP : P s) (hR : R s a) {es : List ε}
    (hes : Steps (crashing step) (fun t e ↦ ∀ s ∈ t, keep s e) (some s) es) :
    ∃ s' a', es.foldl (crashing step) (some s) = some s' ∧
      (es.map f).foldl (crashing astep) (some a) = some a' ∧ R s' a' := by
  induction es generalizing s a with
  | nil => exact ⟨s, a, rfl, rfl, hR⟩
  | cons e es ih =>
      obtain ⟨he, hes⟩ := hes
      obtain ⟨s', a', hs', hP', ha', hR'⟩ := h s a e hP hR (he s rfl)
      rw [crashing_some, hs'] at hes
      rw [List.map_cons, List.foldl_cons, List.foldl_cons, crashing_some, crashing_some, hs', ha']
      exact ih hP' hR' hes

/-! ## Answers and simulation -/

section

variable {α : Type w} {ο : Type x}

/-- What a machine answers along a run. -/
def outputs (step : σ → ε → σ × ο) : σ → List ε → List ο
  | _, [] => []
  | s, e :: es => (step s e).2 :: outputs step (step s e).1 es

@[simp] theorem outputs_cons (step : σ → ε → σ × ο) (s : σ) (e : ε) (es : List ε) :
    outputs step s (e :: es) = (step s e).2 :: outputs step (step s e).1 es := rfl

/-- The state in which a machine with answers ends. -/
def final (step : σ → ε → σ × ο) (s : σ) (es : List ε) : σ :=
  es.foldl (fun s e ↦ (step s e).1) s

/-- `R` is a forward simulation of `step` by `astep`, on the events that meet
`ok` in the abstract state: the answers agree and `R` is kept. -/
def Simulates (R : σ → α → Prop) (ok : α → ε → Prop) (step : σ → ε → σ × ο)
    (astep : α → ε → α × ο) : Prop :=
  ∀ s a e, R s a → ok a e →
    R (step s e).1 (astep a e).1 ∧ (step s e).2 = (astep a e).2

variable {R : σ → α → Prop} {aok : α → ε → Prop} {cstep : σ → ε → σ × ο} {astep : α → ε → α × ο}

/-- A simulation relates the ends of a run. -/
theorem Simulates.final (h : Simulates R aok cstep astep) {s : σ} {a : α} (hR : R s a)
    {es : List ε} (hes : Steps (fun a e ↦ (astep a e).1) aok a es) :
    R (final cstep s es) (final astep a es) := by
  induction es generalizing s a with
  | nil => exact hR
  | cons e es ih => exact ih (h s a e hR hes.1).1 hes.2

/-- **Forward simulation.**  Related machines answer alike along every run. -/
theorem Simulates.outputs_eq (h : Simulates R aok cstep astep) {s : σ} {a : α} (hR : R s a)
    {es : List ε} (hes : Steps (fun a e ↦ (astep a e).1) aok a es) :
    outputs cstep s es = outputs astep a es := by
  induction es generalizing s a with
  | nil => rfl
  | cons e es ih =>
      obtain ⟨hR', ho⟩ := h s a e hR hes.1
      rw [outputs_cons, outputs_cons, ho, ih hR' hes.2]

end

end Runs
