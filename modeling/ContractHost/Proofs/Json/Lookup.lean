import Mathlib.Data.List.Nodup
import Mathlib.Tactic.Common
import ContractHost.Proofs.Json.Fields

/-!
# Known members among unknown ones

An object may hold the members that its reader knows, each once, together with any others, in any
order.  What is found under a known name is then what the known members give, whether the first or
the last of a name counts, and wherever the others stand (`lookup_of_perm`, `member?_of_perm`).

Whether such an object is read at all does not depend on the order either, only the error does.  So
what is read is compared as an option here.
-/

namespace ContractHost.Json

variable {α β ε : Type}

/-! ## Answers without their errors -/

/-- One after the other two things are read if both are. -/
@[simp] lemma toOption_bind (x : Except ε α) (f : α → Except ε β) :
    (x.bind f).toOption = x.toOption.bind fun a => (f a).toOption := by
  rcases x with e | a <;> rfl

/-- What is read can be mapped. -/
@[simp] lemma toOption_map (x : Except ε α) (f : α → β) :
    (x.map f).toOption = x.toOption.map f := by
  rcases x with e | a <;> rfl

/-- A list is read if each of its elements is. -/
lemma toOption_mapM (f : α → Except ε β) (as : List α) :
    (as.mapM f).toOption = as.mapM fun a => (f a).toOption := by
  induction as with
  | nil => rfl
  | cons a as ih =>
    rw [List.mapM_cons, List.mapM_cons, ← ih]
    rcases f a with e | b
    · rfl
    · rcases as.mapM f with e | bs <;> rfl

/-- Something is read where reading does not fail. -/
lemma toOption_eq_some {x : Except ε α} {a : α} : x.toOption = some a ↔ x = .ok a := by
  rcases x with e | a <;> simp [Except.toOption]

/-! ## Looking up names -/

variable {ms known strays : List (String × β)} {name : String}

/-- If no name occurs twice, at most one member has the name. -/
lemma length_filter_le_one (hn : (ms.map Prod.fst).Nodup) (name : String) :
    (ms.filter (·.1 == name)).length ≤ 1 := by
  have hcount := List.nodup_iff_count_le_one.1 hn name
  rwa [List.count, List.countP_map, List.countP_eq_length_filter] at hcount

/-- The members of a name are those of the known ones, if no unknown one has the name. -/
lemma filter_of_perm (hp : ms.Perm (known ++ strays)) (hn : (known.map Prod.fst).Nodup)
    (hs : ∀ m ∈ strays, m.1 ≠ name) :
    ms.filter (·.1 == name) = known.filter (·.1 == name) := by
  have hstrays : strays.filter (·.1 == name) = [] := by
    simpa [List.filter_eq_nil_iff] using fun key b hmem => hs (key, b) hmem
  have hperm : (ms.filter (·.1 == name)).Perm (known.filter (·.1 == name)) := by
    simpa [hstrays] using hp.filter (·.1 == name)
  -- There is at most one of them, so that their order does not matter.
  have hlen := length_filter_le_one hn name
  rcases hknown : known.filter (·.1 == name) with _ | ⟨m, _ | ⟨m', rest⟩⟩
  · rw [hknown] at hperm
    rw [List.perm_nil.1 hperm, hknown]
  · rw [hknown] at hperm
    rw [List.perm_singleton.1 hperm, hknown]
  · rw [hknown] at hlen
    simp at hlen

/-- The first member of a name is the first of those that have the name. -/
lemma lookup_eq_head? (ms : List (String × β)) (name : String) :
    ms.lookup name = (ms.filter (·.1 == name)).head?.map Prod.snd := by
  induction ms with
  | nil => rfl
  | cons m ms ih =>
    obtain ⟨key, b⟩ := m
    by_cases hkey : key = name
    · simp [hkey]
    · have hne : (name == key) = false := by simpa using Ne.symm hkey
      rw [List.lookup_cons, hne, ih, List.filter_cons_of_neg (by simpa using hkey)]

/-- A known member is found among unknown ones, in any order. -/
lemma lookup_of_perm (hp : ms.Perm (known ++ strays)) (hn : (known.map Prod.fst).Nodup)
    (hs : ∀ m ∈ strays, m.1 ≠ name) : ms.lookup name = known.lookup name := by
  rw [lookup_eq_head?, lookup_eq_head?, filter_of_perm hp hn hs]

/-- The last member of a name is the last of those that have the name. -/
lemma Value.member?_eq_getLast? (ms : List (String × Value)) (name : String) :
    member? ms name = (ms.filter (·.1 == name)).getLast?.map Prod.snd := by
  rw [member?, ← List.head?_filter, List.filter_reverse, List.head?_reverse]

/-- The value of a known member is found among unknown ones, in any order. -/
lemma Value.member?_of_perm {ms known strays : List (String × Value)}
    (hp : ms.Perm (known ++ strays)) (hn : (known.map Prod.fst).Nodup)
    (hs : ∀ m ∈ strays, m.1 ≠ name) : member? ms name = member? known name := by
  rw [member?_eq_getLast?, member?_eq_getLast?, filter_of_perm hp hn hs]

/-- What is found behind another member. -/
lemma lookup_append_singleton (ms : List (String × β)) (key name : String) (b : β) :
    (ms ++ [(key, b)]).lookup name =
      (ms.lookup name).or (if key = name then some b else none) := by
  rw [List.lookup_append, lookup_eq_head? [(key, b)]]
  by_cases hkey : key = name <;> simp [hkey]

end ContractHost.Json
