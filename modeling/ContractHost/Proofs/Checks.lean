import Mathlib.Data.List.Forall2
import Mathlib.Tactic.Common

/-!
# Checks in a row

What can fail is often a row of checks, each with an error of its own, and the error that is
answered is that of the first check that is not met.  `Decided` says this of an outcome and the
checks behind it; outcomes that follow one another are decided by their checks in the same order
(`Decided.bind`).
-/

namespace ContractHost

variable {α β ε : Type}

/-! ## Two steps -/

/-- Two steps succeed just if the first does, and the second does with its result. -/
lemma bind_eq_ok_iff {x : Except ε α} {f : α → Except ε β} {b : β} :
    x >>= f = .ok b ↔ ∃ a, x = .ok a ∧ f a = .ok b := by
  cases x <;> simp [bind, Except.bind]

/-- Two steps fail just if the first does, or the second does with the result of the first. -/
lemma bind_eq_error_iff {x : Except ε α} {f : α → Except ε β} {e : ε} :
    x >>= f = .error e ↔ x = .error e ∨ ∃ a, x = .ok a ∧ f a = .error e := by
  cases x <;> simp [bind, Except.bind]

/-- An outcome succeeds with a result just if it does so under other errors. -/
lemma mapError_eq_ok_iff {δ : Type} {x : Except ε α} {f : ε → δ} {a : α} :
    x.mapError f = .ok a ↔ x = .ok a := by
  cases x <;> simp [Except.mapError]

/-- An outcome fails under other errors just if it fails, with the other error for its own. -/
lemma mapError_eq_error_iff {δ : Type} {x : Except ε α} {f : ε → δ} {e' : δ} :
    x.mapError f = .error e' ↔ ∃ e, x = .error e ∧ f e = e' := by
  cases x <;> simp [Except.mapError]

/-- An outcome fails just as it does with another result. -/
lemma map_eq_error_iff {x : Except ε α} {f : α → β} {e : ε} :
    x.map f = .error e ↔ x = .error e := by
  cases x <;> simp [Except.map]

/-! ## Lists -/

/-- A list is gone through without failure just if no element fails. -/
lemma mapM_eq_ok_iff {f : α → Except ε β} {xs : List α} {ys : List β} :
    xs.mapM f = .ok ys ↔ List.Forall₂ (fun x y => f x = .ok y) xs ys := by
  induction xs generalizing ys with
  | nil =>
    rw [List.mapM_nil, List.forall₂_nil_left_iff]
    exact ⟨fun h => by cases h; rfl, fun h => by rw [h]; rfl⟩
  | cons x xs ih =>
    rw [List.mapM_cons, List.forall₂_cons_left_iff, bind_eq_ok_iff]
    constructor
    · rintro ⟨y, hx, h⟩
      obtain ⟨ys', hxs, h⟩ := bind_eq_ok_iff.1 h
      cases h
      exact ⟨y, ys', hx, ih.1 hxs, rfl⟩
    · rintro ⟨y, ys', hx, hxs, rfl⟩
      exact ⟨y, hx, bind_eq_ok_iff.2 ⟨ys', ih.2 hxs, rfl⟩⟩

/-- What a list was gone through to is made of its elements. -/
lemma exists_of_mem_mapM {f : α → Except ε β} {xs : List α} {ys : List β} {y : β}
    (h : xs.mapM f = .ok ys) (hy : y ∈ ys) : ∃ x ∈ xs, f x = .ok y := by
  have hall := mapM_eq_ok_iff.1 h
  clear h
  induction hall with
  | nil => cases hy
  | @cons x _ _ _ hx _ ih =>
    rcases List.mem_cons.1 hy with rfl | hy
    · exact ⟨x, List.mem_cons_self, hx⟩
    · obtain ⟨x', hmem, hx'⟩ := ih hy
      exact ⟨x', List.mem_cons_of_mem _ hmem, hx'⟩

/-- A list is gone through in vain because of the first of its elements that fails. -/
lemma mapM_eq_error_iff {f : α → Except ε β} {xs : List α} {e : ε} :
    xs.mapM f = .error e ↔ ∃ before x after, xs = before ++ x :: after ∧
      (∀ x' ∈ before, ∃ y, f x' = .ok y) ∧ f x = .error e := by
  induction xs with
  | nil =>
    refine iff_of_false (fun h => by cases h) ?_
    rintro ⟨before, x, after, hxs, -⟩
    exact List.append_ne_nil_of_right_ne_nil before (List.cons_ne_nil x after) hxs.symm
  | cons x xs ih =>
    rw [List.mapM_cons, bind_eq_error_iff]
    constructor
    · rintro (hx | ⟨y, hx, h⟩)
      · exact ⟨[], x, xs, rfl, fun _ hmem => absurd hmem List.not_mem_nil, hx⟩
      · rcases bind_eq_error_iff.1 h with hxs | ⟨_, _, h⟩
        · obtain ⟨before, x', after, rfl, hbefore, hx'⟩ := ih.1 hxs
          exact ⟨x :: before, x', after, rfl, List.forall_mem_cons.2 ⟨⟨y, hx⟩, hbefore⟩, hx'⟩
        · cases h
    · rintro ⟨before, x', after, hxs, hbefore, hx'⟩
      rcases before with _ | ⟨first, before⟩
      · obtain ⟨rfl, rfl⟩ := List.cons_eq_cons.1 hxs
        exact Or.inl hx'
      · obtain ⟨rfl, rfl⟩ := List.cons_eq_cons.1 hxs
        obtain ⟨⟨y, hx⟩, hbefore⟩ := List.forall_mem_cons.1 hbefore
        have htail := ih.2 ⟨before, x', after, rfl, hbefore, hx'⟩
        exact Or.inr ⟨y, hx, bind_eq_error_iff.2 (Or.inl htail)⟩

/-- A list is gone through in vain because of one of its elements. -/
lemma exists_of_mapM_eq_error {f : α → Except ε β} {xs : List α} {e : ε}
    (h : xs.mapM f = .error e) : ∃ x ∈ xs, f x = .error e := by
  obtain ⟨before, x, after, rfl, -, hx⟩ := mapM_eq_error_iff.1 h
  exact ⟨x, List.mem_append_right before List.mem_cons_self, hx⟩

/-- A list is gone through in vain if one of its elements fails. -/
lemma exists_mapM_eq_error {f : α → Except ε β} {xs : List α} {x : α} {e : ε} (hx : x ∈ xs)
    (h : f x = .error e) : ∃ e', xs.mapM f = .error e' := by
  induction xs with
  | nil => cases hx
  | cons x' xs ih =>
    rw [List.mapM_cons]
    rcases List.mem_cons.1 hx with rfl | hx
    · exact ⟨e, bind_eq_error_iff.2 (Or.inl h)⟩
    · obtain ⟨e', he'⟩ := ih hx
      rcases hfirst : f x' with e'' | y
      · exact ⟨e'', rfl⟩
      · exact ⟨e', bind_eq_error_iff.2 (Or.inr ⟨y, rfl, bind_eq_error_iff.2 (Or.inl he')⟩)⟩

/-! ## Rows of checks -/

/-- What is asked for, and the error that answers where it is not met. -/
structure Check (ε : Type) where
  met : Prop
  error : ε

/-- The error of the first check that is not met. -/
inductive FirstFailing : List (Check ε) → ε → Prop
  | here {check : Check ε} {checks : List (Check ε)} (h : ¬check.met) :
    FirstFailing (check :: checks) check.error
  | behind {check : Check ε} {checks : List (Check ε)} {e : ε} (h : check.met)
    (hrest : FirstFailing checks e) : FirstFailing (check :: checks) e

variable {check : Check ε} {checks checks' : List (Check ε)} {e : ε}

/-- Without checks none fails. -/
lemma not_firstFailing_nil : ¬FirstFailing [] e := by
  intro h
  cases h

/-- Either the first check is not met, or it is and a later one is not. -/
lemma firstFailing_cons : FirstFailing (check :: checks) e ↔
    ¬check.met ∧ check.error = e ∨ check.met ∧ FirstFailing checks e := by
  constructor
  · rintro (h | ⟨h, hrest⟩)
    · exact Or.inl ⟨h, rfl⟩
    · exact Or.inr ⟨h, hrest⟩
  · rintro (⟨h, rfl⟩ | ⟨h, hrest⟩)
    · exact .here h
    · exact .behind h hrest

/-- Either a check of the first row is not met, or all are and one of the second row is not. -/
lemma firstFailing_append : FirstFailing (checks ++ checks') e ↔
    FirstFailing checks e ∨ (∀ check ∈ checks, check.met) ∧ FirstFailing checks' e := by
  induction checks with
  | nil => simp [not_firstFailing_nil]
  | cons check checks ih =>
    rw [List.cons_append, firstFailing_cons, firstFailing_cons, ih, List.forall_mem_cons]
    tauto

/-- Some check is not met unless all are. -/
lemma exists_firstFailing_iff :
    (∃ e, FirstFailing checks e) ↔ ¬∀ check ∈ checks, check.met := by
  induction checks with
  | nil => simp [not_firstFailing_nil]
  | cons check checks ih =>
    by_cases h : check.met
    · simp [firstFailing_cons, h, ih]
    · simp [firstFailing_cons, h]

/-! ## What checks decide -/

/-- The outcome is decided by the checks: it fails with the error of the first that is not met, and
succeeds if there is none. -/
def Decided (x : Except ε α) (checks : List (Check ε)) : Prop :=
  ∀ e, x = .error e ↔ FirstFailing checks e

/-- What is decided by checks succeeds just if all of them are met. -/
lemma Decided.exists_ok_iff {x : Except ε α} (h : Decided x checks) :
    (∃ a, x = .ok a) ↔ ∀ check ∈ checks, check.met := by
  rw [← not_iff_not, ← exists_firstFailing_iff]
  constructor
  · intro hno
    obtain e | a := x
    · exact ⟨e, (h e).1 rfl⟩
    · exact absurd ⟨a, rfl⟩ hno
  · rintro ⟨e, he⟩ ⟨a, ha⟩
    cases ((h e).2 he).symm.trans ha

/-- What always succeeds is decided by no checks. -/
lemma decided_ok (a : α) : Decided (.ok a : Except ε α) [] := by
  intro e
  exact iff_of_false (fun h => by cases h) not_firstFailing_nil

/-- A guard is one check more, before all others. -/
lemma Decided.guard {x : Except ε α} {met p : Prop} [Decidable p] (hmet : met ↔ ¬p)
    (h : Decided x checks) : Decided (if p then .error e else x) (⟨met, e⟩ :: checks) := by
  intro e'
  rw [firstFailing_cons, hmet]
  by_cases hp : p
  · simp [hp]
  · simp [hp, h e']

/-- One check decides if it is met where the outcome succeeds, and its error answers elsewhere. -/
lemma decided_of_iff {x : Except ε α} {met : Prop} (hok : met → ∃ a, x = .ok a)
    (herror : ¬met → x = .error e) : Decided x [⟨met, e⟩] := by
  intro e'
  rw [firstFailing_cons, or_iff_left fun h => not_firstFailing_nil h.2]
  by_cases h : met
  · obtain ⟨a, ha⟩ := hok h
    rw [ha]
    exact iff_of_false (fun heq => by cases heq) fun hnot => hnot.1 h
  · rw [herror h, Except.error.injEq]
    exact (and_iff_right h).symm

/-- Two steps are decided by the checks of the first and those of the second. -/
lemma Decided.bind {x : Except ε α} {f : α → Except ε β} (hx : Decided x checks)
    (hf : ∀ a, x = .ok a → Decided (f a) checks') : Decided (x >>= f) (checks ++ checks') := by
  intro e
  rw [bind_eq_error_iff, firstFailing_append, hx e, ← hx.exists_ok_iff]
  refine or_congr_right ⟨?_, ?_⟩
  · rintro ⟨a, ha, he⟩
    exact ⟨⟨a, ha⟩, (hf a ha e).1 he⟩
  · rintro ⟨⟨a, ha⟩, he⟩
    exact ⟨a, ha, (hf a ha e).2 he⟩

/-- An outcome is decided by the same checks whatever becomes of its result. -/
lemma Decided.map {x : Except ε α} (hx : Decided x checks) (f : α → β) :
    Decided (x.map f) checks := by
  intro e
  rw [map_eq_error_iff, hx e]

end ContractHost
