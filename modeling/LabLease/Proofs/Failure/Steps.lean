import Mathlib.Data.List.Forall2

/-!
# Steps that may fail

Steps one after the other fail if one of them does and those before it do not
(`bind_eq_error_iff`), and a list of them fails with the first fault that is met (`FirstFault`,
`mapM_eq_error_iff`).

What may come of reading a text or of taking a step is told by two relations, one for the values
that it gives and one for the failures that it meets (`Described`). Where they leave nothing open
(`Described.total`), it is enough to know that what they tell does come of it
(`Described.of_total`).
-/

namespace LabLease

/-! ## One after the other -/

/-- Steps that may fail, one after the other, succeed if each of them does. -/
theorem bind_eq_ok_iff {ε α β : Type} {x : Except ε α} {f : α → Except ε β} {b : β} :
    x >>= f = .ok b ↔ ∃ a, x = .ok a ∧ f a = .ok b := by
  cases x with
  | error e => simp [bind, Except.bind]
  | ok a => simp [bind, Except.bind]

/-- Steps that may fail, one after the other, fail if one of them does and those before it do
not. -/
theorem bind_eq_error_iff {ε α β : Type} {x : Except ε α} {f : α → Except ε β} {e : ε} :
    x >>= f = .error e ↔ x = .error e ∨ ∃ a, x = .ok a ∧ f a = .error e := by
  cases x with
  | error e' => simp [bind, Except.bind]
  | ok a => simp [bind, Except.bind]

/-- A list is read if each of its members is. -/
theorem mapM_eq_ok_iff {ε α β : Type} {f : α → Except ε β} {xs : List α} {ys : List β} :
    xs.mapM f = .ok ys ↔ List.Forall₂ (fun x y => f x = .ok y) xs ys := by
  induction xs generalizing ys with
  | nil => simp [pure, Except.pure, eq_comm]
  | cons x xs ih =>
    simp only [List.mapM_cons, bind_eq_ok_iff, ih, List.forall₂_cons_left_iff]
    constructor
    · rintro ⟨y, hy, ys', hys, ⟨⟩⟩
      exact ⟨y, ys', hy, hys, rfl⟩
    · rintro ⟨y, ys', hy, hys, rfl⟩
      exact ⟨y, hy, ys', hys, rfl⟩

/-! ## The first fault of many -/

/-- A member of a list has the fault `e`, and all members in front of it are fine. -/
def FirstFault {α ε : Type} (Fine : α → Prop) (Fault : α → ε → Prop) (xs : List α) (e : ε) : Prop :=
  ∃ before x after, xs = before ++ x :: after ∧ (∀ y ∈ before, Fine y) ∧ Fault x e

section FirstFault

variable {α β ε : Type} {Fine : α → Prop} {Fault : α → ε → Prop} {x : α} {xs : List α} {e : ε}

theorem not_firstFault_nil : ¬ FirstFault Fine Fault [] e := by
  rintro ⟨before, x, after, h, -⟩
  simp at h

/-- The first fault of a list is that of its head, or the head is fine and it is that of the
others. -/
theorem firstFault_cons_iff : FirstFault Fine Fault (x :: xs) e ↔
    Fault x e ∨ Fine x ∧ FirstFault Fine Fault xs e := by
  constructor
  · rintro ⟨before, y, after, h, hbefore, hy⟩
    cases before with
    | nil =>
      cases h
      exact .inl hy
    | cons z before =>
      cases h
      obtain ⟨hz, hbefore⟩ := List.forall_mem_cons.1 hbefore
      exact .inr ⟨hz, before, y, after, rfl, hbefore, hy⟩
  · rintro (hx | ⟨hx, before, y, after, rfl, hbefore, hy⟩)
    · exact ⟨[], x, xs, rfl, nofun, hx⟩
    · exact ⟨x :: before, y, after, rfl, List.forall_mem_cons.2 ⟨hx, hbefore⟩, hy⟩

/-- A list is refused for the first of its members that is not read. -/
theorem mapM_eq_error_iff {f : α → Except ε β} : xs.mapM f = .error e ↔
    FirstFault (fun x => ∃ b, f x = .ok b) (fun x e => f x = .error e) xs e := by
  induction xs with
  | nil => simp [not_firstFault_nil, pure, Except.pure]
  | cons x xs ih =>
    rw [List.mapM_cons, firstFault_cons_iff, bind_eq_error_iff]
    simp [bind_eq_error_iff, ih, pure, Except.pure]

end FirstFault

/-! ## Answers and their descriptions -/

section Described

variable {ε α : Type} {x : Except ε α} {P : α → Prop} {Q : ε → Prop}

/-- An answer is described by what it may give and by how it may fail. -/
structure Described (x : Except ε α) (P : α → Prop) (Q : ε → Prop) : Prop where
  ok_iff {a : α} : x = .ok a ↔ P a
  error_iff {e : ε} : x = .error e ↔ Q e

/-- A description leaves nothing open. -/
theorem Described.total (h : Described x P Q) : (∃ a, P a) ∨ ∃ e, Q e := by
  cases hx : x with
  | ok a => exact .inl ⟨a, h.ok_iff.1 hx⟩
  | error e => exact .inr ⟨e, h.error_iff.1 hx⟩

/-- Of a description that leaves nothing open one direction is enough: what it tells is what the
answer is. -/
theorem Described.of_total (hok : ∀ a, P a → x = .ok a) (herr : ∀ e, Q e → x = .error e)
    (total : (∃ a, P a) ∨ ∃ e, Q e) : Described x P Q where
  ok_iff {a} := by
    refine ⟨?_, hok a⟩
    rintro rfl
    obtain ⟨a', ha'⟩ | ⟨e, he⟩ := total
    · obtain rfl := Except.ok.inj (hok a' ha')
      exact ha'
    · cases herr e he
  error_iff {e} := by
    refine ⟨?_, herr e⟩
    rintro rfl
    obtain ⟨a, ha⟩ | ⟨e', he'⟩ := total
    · cases hok a ha
    · obtain rfl := Except.error.inj (herr e' he')
      exact he'

end Described

end LabLease
