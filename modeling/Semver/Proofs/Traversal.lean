import Mathlib.Data.List.Forall2

/-!
# Traversals that may fail

A reader of a row of pieces reads them one after the other and stops at the first failure. Both of
its outcomes can be told from the pieces: it succeeds if it succeeds on each of them, and it fails
with the error of the leftmost piece on which it does not.

* `Semver.Traversal.mapM_eq_ok_iff`: the outcomes that succeed.
* `Semver.Traversal.mapM_eq_error_iff`: the outcomes that fail.
-/

namespace Semver.Traversal

variable {α β ε : Type} {f : α → Except ε β} {x : α} {xs : List α} {ys : List β} {e : ε}

theorem mapM_cons_eq_ok_iff :
    (x :: xs).mapM f = .ok ys ↔ ∃ z zs, f x = .ok z ∧ xs.mapM f = .ok zs ∧ ys = z :: zs := by
  rw [List.mapM_cons]
  cases hx : f x with
  | error e => simp [bind, Except.bind]
  | ok z => cases hxs : xs.mapM f <;> simp [bind, Except.bind, pure, Except.pure, eq_comm]

theorem mapM_cons_eq_error_iff :
    (x :: xs).mapM f = .error e ↔ f x = .error e ∨ ((∃ z, f x = .ok z) ∧ xs.mapM f = .error e) := by
  rw [List.mapM_cons]
  cases hx : f x with
  | error e => simp [bind, Except.bind]
  | ok z => cases hxs : xs.mapM f <;> simp [bind, Except.bind, pure, Except.pure]

/-- **A traversal succeeds piece by piece.** -/
theorem mapM_eq_ok_iff : xs.mapM f = .ok ys ↔ List.Forall₂ (fun x y => f x = .ok y) xs ys := by
  induction xs generalizing ys with
  | nil => simp [pure, Except.pure, eq_comm]
  | cons x xs ih =>
    rw [mapM_cons_eq_ok_iff, List.forall₂_cons_left_iff]
    simp only [ih]

/-- **A traversal fails where it first cannot go on.** -/
theorem mapM_eq_error_iff : xs.mapM f = .error e ↔
    ∃ before x after, xs = before ++ x :: after ∧ (∀ y ∈ before, ∃ z, f y = .ok z) ∧
      f x = .error e := by
  induction xs with
  | nil => simp [pure, Except.pure]
  | cons x xs ih =>
    rw [mapM_cons_eq_error_iff, ih]
    constructor
    · rintro (hx | ⟨hx, before, y, after, rfl, hbefore, hy⟩)
      · exact ⟨[], x, xs, rfl, by simp, hx⟩
      · exact ⟨x :: before, y, after, rfl, List.forall_mem_cons.mpr ⟨hx, hbefore⟩, hy⟩
    · -- the piece that fails is the first one, or it is found behind the first one
      rintro ⟨before, y, after, hxs, hbefore, hy⟩
      cases before with
      | nil =>
        obtain ⟨rfl, rfl⟩ := List.cons.inj hxs
        exact Or.inl hy
      | cons first before =>
        obtain ⟨rfl, rfl⟩ := List.cons.inj hxs
        obtain ⟨hx, hbefore⟩ := List.forall_mem_cons.mp hbefore
        exact Or.inr ⟨hx, before, y, after, rfl, hbefore, hy⟩

/-- Two steps in a row succeed if the first does, and the second on what the first one gives. -/
theorem bind_eq_ok_iff {m : Except ε α} {y : β} :
    (m >>= f) = .ok y ↔ ∃ x, m = .ok x ∧ f x = .ok y := by
  cases m <;> simp [bind, Except.bind]

/-- Two steps in a row fail if the first does, or the second on what the first one gives. -/
theorem bind_eq_error_iff {m : Except ε α} :
    (m >>= f) = .error e ↔ m = .error e ∨ ∃ x, m = .ok x ∧ f x = .error e := by
  cases m <;> simp [bind, Except.bind]

/-- A traversal of two rows that succeeds on the first one goes on with the second one. -/
theorem mapM_append_of_eq_ok {xs' : List α} (h : xs.mapM f = .ok ys) :
    (xs ++ xs').mapM f = (xs'.mapM f).map (ys ++ ·) := by
  rw [List.mapM_append, h]
  cases xs'.mapM f <;> rfl

/-- Each piece of a traversal that succeeds has an outcome among those collected. -/
theorem exists_of_mem_left (h : xs.mapM f = .ok ys) (hx : x ∈ xs) : ∃ y ∈ ys, f x = .ok y := by
  have hall := mapM_eq_ok_iff.mp h
  clear h
  induction hall with
  | nil => exact absurd hx (by simp)
  | cons hy _ ih =>
    rcases List.mem_cons.mp hx with rfl | hx
    · exact ⟨_, by simp, hy⟩
    · obtain ⟨y, hmem, hy⟩ := ih hx
      exact ⟨y, by simp [hmem], hy⟩

/-- Each outcome collected is that of some piece. -/
theorem exists_of_mem_right {y : β} (h : xs.mapM f = .ok ys) (hy : y ∈ ys) :
    ∃ x ∈ xs, f x = .ok y := by
  have hall := mapM_eq_ok_iff.mp h
  clear h
  induction hall with
  | nil => exact absurd hy (by simp)
  | cons hx _ ih =>
    rcases List.mem_cons.mp hy with rfl | hy
    · exact ⟨_, by simp, hx⟩
    · obtain ⟨x, hmem, hx⟩ := ih hy
      exact ⟨x, by simp [hmem], hx⟩

theorem exists_mapM_eq_ok_iff : (∃ ys, xs.mapM f = .ok ys) ↔ ∀ x ∈ xs, ∃ y, f x = .ok y := by
  constructor
  · rintro ⟨ys, hys⟩ x hx
    obtain ⟨y, -, hy⟩ := exists_of_mem_left hys hx
    exact ⟨y, hy⟩
  · intro h
    cases hys : xs.mapM f with
    | ok ys => exact ⟨ys, rfl⟩
    | error e =>
      obtain ⟨before, x, after, rfl, -, hx⟩ := mapM_eq_error_iff.mp hys
      obtain ⟨y, hy⟩ := h x (by simp)
      rw [hx] at hy
      cases hy

end Semver.Traversal
