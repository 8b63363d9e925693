import Mathlib.Data.List.Induction
import Mathlib.Data.List.Nodup
import Mathlib.Tactic.Common
import ContractHost.Proofs.Json.Written

/-!
# Members in any order

The member of a name does not depend on the order of the members, if no name occurs twice
(`Value.member?_perm`).  A record is read from an object by taking its members one after the other;
where each of them gives a field that was not given before, the state at the end is reached from
every text of the object (`RecordShape.reads_of_takes`).
-/

namespace ContractHost.Json

/-! ## Looking up members -/

namespace Value

/-- A member behind the others is the one that counts. -/
lemma member?_append_singleton (ms : List (String × Value)) (m : String × Value)
    (name : String) :
    member? (ms ++ [m]) name = if m.1 == name then some m.2 else member? ms name := by
  rw [member?, List.reverse_append, List.reverse_singleton, List.singleton_append,
    List.find?_cons]
  cases m.1 == name <;> rfl

/-- There is no member of a name that does not occur. -/
lemma member?_eq_none_iff {ms : List (String × Value)} {name : String} :
    member? ms name = none ↔ name ∉ ms.map Prod.fst := by
  simp only [member?, Option.map_eq_none_iff, List.find?_eq_none, List.mem_reverse, List.mem_map,
    beq_iff_eq, not_exists, not_and]

/-- If no name occurs twice, the members are found by their names. -/
lemma member?_eq_some_iff {ms : List (String × Value)} (h : (ms.map Prod.fst).Nodup)
    {name : String} {v : Value} : member? ms name = some v ↔ (name, v) ∈ ms := by
  induction ms using List.reverseRecOn with
  | nil => simp [member?]
  | append_singleton ms m ih =>
    rw [List.map_append, List.nodup_append] at h
    obtain ⟨hms, _, hne⟩ := h
    rw [member?_append_singleton, List.mem_append, List.mem_singleton]
    by_cases hm : m.1 = name
    · have hnot : (name, v) ∉ ms := fun hmem =>
        hne name (List.mem_map_of_mem (f := Prod.fst) hmem) m.1 (by simp) hm.symm
      obtain ⟨key, w⟩ := m
      obtain rfl : key = name := hm
      simp [hnot, eq_comm]
    · have hnot : (name, v) ≠ m := fun heq => hm (congrArg Prod.fst heq).symm
      simp [hm, ih hms, hnot]

/-- If no name occurs twice, the member of a name is the same in any order. -/
lemma member?_perm {ms ms' : List (String × Value)} (h : (ms.map Prod.fst).Nodup)
    (hp : ms.Perm ms') (name : String) : member? ms name = member? ms' name := by
  have h' : (ms'.map Prod.fst).Nodup := (hp.map Prod.fst).nodup_iff.1 h
  ext v
  rw [member?_eq_some_iff h, member?_eq_some_iff h', hp.mem_iff]

end Value

/-! ## Reading records -/

variable {σ α : Type}

/-- The members lead from one state of a record to another: each is of a field that is not given
before it, and the field's reader takes every text of its value for the update of the state. -/
inductive Field.Takes (fields : List (Field σ)) : σ → List (String × Value) → σ → Prop
  | nil (state : σ) : Takes fields state [] state
  | cons {m : String × Value} {ms : List (String × Value)} {field : Field σ} {state state' : σ}
      {update : σ → σ} : fields.find? (·.name == m.1) = some field →
      field.given state = false → (∀ text, m.2.HasText text → field.reader.Reads text update) →
      Takes fields (update state) ms state' → Takes fields state (m :: ms) state'

namespace Field

variable {fields : List (Field σ)} {state state' : σ} {ms : List (String × Value)}
  {items : List (List UInt8)}

/-- Texts of members that are left of a record are read up to its brace. -/
lemma Takes.readMembers_sequence (h : Takes fields state ms state')
    (ht : List.Forall₂ MemberHasText ms items) (first : Bool) (rest : List UInt8) :
    readMembers fields state first (sequence first items ++ Byte.closeBrace :: rest) =
      .ok (state', rest) := by
  induction h generalizing items first with
  | nil state =>
    cases ht
    exact readMembers_close blank_nil fields state first rest
  | cons hfind hgiven hread _ ih =>
    obtain _ | ⟨hitem, hitems⟩ := ht
    rw [sequence, List.append_assoc, List.append_assoc, readMembers_member hfind hgiven
      (hitem.isMember hread) (ends_sequence _ (ends_closeBrace rest)), ih hitems]

/-- A field that is kept as an option is given by the texts of a value, if its reader reads them. -/
lemma exists_ofReader {name : String} {get : σ → Option α} {set : α → σ → σ} {p : Reader α}
    {v : Value} {a : α} (hfind : fields.find? (·.name == name) = some (.ofReader name get set p))
    (hnew : get state = none) (hread : ∀ text, v.HasText text → p.Reads text a)
    (hset : set a state = state') :
    ∃ field update, fields.find? (·.name == name) = some field ∧ field.given state = false ∧
      (∀ text, v.HasText text → field.reader.Reads text update) ∧ update state = state' := by
  refine ⟨_, set a, hfind, ?_, fun text ht => (hread text ht).map set, hset⟩
  simp [ofReader, hnew]

/-- Members of different names are taken one after the other, if each of them, behind any that were
taken, gives a field that is not given yet and leads on to the state for one member more. -/
lemma takes_append {Gives : String × Value → Prop} (stateOf : List (String × Value) → σ)
    (hstep : ∀ done m, Gives m → m.1 ∉ done.map Prod.fst →
      ∃ field update, fields.find? (·.name == m.1) = some field ∧
        field.given (stateOf done) = false ∧
        (∀ text, m.2.HasText text → field.reader.Reads text update) ∧
        update (stateOf done) = stateOf (done ++ [m]))
    (done : List (String × Value)) (hms : ∀ m ∈ ms, Gives m)
    (h : ((done ++ ms).map Prod.fst).Nodup) :
    Takes fields (stateOf done) ms (stateOf (done ++ ms)) := by
  -- By induction on the members that are left, behind those that were taken.
  induction ms generalizing done with
  | nil =>
    rw [List.append_nil]
    exact .nil _
  | cons m ms ih =>
    have hnew : m.1 ∉ done.map Prod.fst := by
      rw [List.map_append, List.map_cons, List.nodup_middle, List.nodup_cons] at h
      exact fun hmem => h.1 (List.mem_append_left _ hmem)
    obtain ⟨field, update, hfind, hgiven, hread, hupdate⟩ :=
      hstep done m (hms m List.mem_cons_self) hnew
    refine .cons hfind hgiven hread ?_
    rw [List.append_cons] at h ⊢
    rw [hupdate]
    exact ih (done ++ [m]) (fun m' hm' => hms m' (List.mem_cons_of_mem m hm')) h

end Field

/-- A record is read up to its brace from every text of an object whose members lead to a state that
the record can be made of. -/
lemma RecordShape.run_of_takes {shape : RecordShape σ α} {ms : List (String × Value)}
    {state : σ} {a : α} {text before : List UInt8}
    (h : Field.Takes shape.fields shape.start ms state) (hf : shape.finish state = .ok a)
    (ht : (Value.object ms).HasText text) (hb : Blank before) (rest : List UInt8) :
    shape.reader.run (before ++ (text ++ rest)) = .ok (a, rest) := by
  rcases ht with _ | _ | _ | _ | _ | _ | @⟨_, ws, items, hws, hitems⟩
  refine RecordShape.run_object (fun rest => ?_) hf hb rest
  rw [List.append_assoc, List.append_assoc, Field.readMembers_append hws, separated_eq_sequence]
  exact h.readMembers_sequence hitems true rest

/-- A record is read from every text of an object whose members lead to a state that the record can
be made of. -/
theorem RecordShape.reads_of_takes {shape : RecordShape σ α} {ms : List (String × Value)}
    {state : σ} {a : α} {text : List UInt8} (h : Field.Takes shape.fields shape.start ms state)
    (hf : shape.finish state = .ok a) (ht : (Value.object ms).HasText text) :
    shape.reader.Reads text a := by
  have hstarts : Starts text := by
    rcases ht with _ | _ | _ | _ | _ | _ | _
    exact ⟨_, _, rfl, by decide, by decide⟩
  exact ⟨hstarts, fun before rest hb _ => RecordShape.run_of_takes h hf ht hb rest⟩

end ContractHost.Json
