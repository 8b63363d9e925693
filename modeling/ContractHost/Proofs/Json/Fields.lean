import Mathlib.Tactic.Common
import ContractHost.Proofs.Json.Answers

/-!
# Records by the texts of their fields

What is made of a record depends only on the names of its members and on what is made of the text
of each: a member of a known name gives its field, once, and a member of another name gives nothing
(`Field.take`).  So a record is what is made by taking its members one after the other
(`RecordShape.readAll_object`); and if it is written as an array, it is made of its elements as the
fields in their order (`RecordShape.readAll_array`).
-/

namespace ContractHost.Json

variable {α σ : Type}

namespace Field

/-- What a member, given by its name and the text of its value, makes of the state. -/
def take (fields : List (Field σ)) (state : σ) (m : String × List UInt8) : Except ReadError σ :=
  match fields.find? (·.name == m.1) with
  | none => .ok state
  | some field =>
    if field.given state then .error (.mismatch (.duplicateField m.1))
    else (readAll field.reader m.2).map fun update => update state

/-- What an element makes of the state as the field that it stands for. -/
def put (state : σ) (x : Field σ × List UInt8) : Except ReadError σ :=
  (readAll x.1.reader x.2).map fun update => update state

variable {fields : List (Field σ)} {item tail : List UInt8}

/-- A member is taken off the front of a record. -/
lemma readMembers_cons_eq (hf : ∀ field ∈ fields, field.reader.IsLocal) {m : String × List UInt8}
    (hm : MemberText m item) (hj : IsJson m.2) (ht : Ends tail) (state : σ) (first : Bool) :
    readMembers fields state first (lead first ++ (item ++ tail)) =
      (take fields state m).bind fun state' => readMembers fields state' false tail := by
  obtain @⟨key, before, text, between, value, hb, hname, hbetween⟩ := hm
  obtain ⟨before', text', after, hb', htext, ha, rfl⟩ := hj
  have hends := ht.blank_append ha
  rw [readMembers_eq]
  simp only [List.append_assoc, List.cons_append, nextMember_open hb,
    hname.stringBody_append, take]
  rcases hfind : fields.find? (·.name == key) with _ | field
  · simp only [hfind, colon_append hbetween, htext.passValue_append hb' hends, Except.bind,
      readMembers_append ha]
  simp only [hfind]
  by_cases hgiven : field.given state = true
  · simp only [if_pos hgiven]
    rfl
  have hrun := (hf field (List.mem_of_find?_eq_some hfind)).answers htext hb' ha before'
    (after ++ tail) hb' hends
  simp only [if_neg hgiven, colon_append hbetween, hrun]
  rcases readAll field.reader (before' ++ (text' ++ after)) with e | update
  · rfl
  · simp only [Except.map, Except.bind, readMembers_append ha]

/-- The members that are left of a record are taken one after the other. -/
lemma readMembers_sequence_eq (hf : ∀ field ∈ fields, field.reader.IsLocal)
    {ms : List (String × List UInt8)} {items : List (List UInt8)} (h : ∀ m ∈ ms, IsJson m.2)
    (hitems : List.Forall₂ MemberText ms items) (state : σ) (first : Bool) (rest : List UInt8) :
    readMembers fields state first (sequence first items ++ Byte.closeBrace :: rest) =
      (ms.foldlM (take fields) state).map fun state' => (state', rest) := by
  induction hitems generalizing state first with
  | nil => exact readMembers_close blank_nil fields state first rest
  | @cons m item ms items hitem hitems ih =>
    have htail := ends_sequence items (ends_closeBrace rest)
    rw [sequence, List.append_assoc, List.append_assoc,
      readMembers_cons_eq hf hitem (h m List.mem_cons_self) htail, List.foldlM_cons]
    rcases take fields state m with e | state'
    · rfl
    · exact ih (fun m' hmem => h m' (List.mem_cons_of_mem _ hmem)) state' false

/-- As many elements as there are fields are put into them one after the other, up to the bracket
and the blanks in front of it. -/
lemma readElements_sequence_eq (hf : ∀ field ∈ fields, field.reader.IsLocal)
    {items : List (List UInt8)} (hlen : items.length = fields.length)
    (h : ∀ item ∈ items, IsJson item) {ws : List UInt8} (hws : Blank ws) (state : σ)
    (first : Bool) (rest : List UInt8) :
    ∃ ws', Blank ws' ∧
      readElements fields state first (ws ++ (sequence first items ++ Byte.closeBracket :: rest)) =
        ((fields.zip items).foldlM put state).map fun state' =>
          (state', .open (ws' ++ Byte.closeBracket :: rest)) := by
  induction fields generalizing items ws state first with
  | nil =>
    obtain rfl := List.eq_nil_of_length_eq_zero hlen
    exact ⟨ws, hws, rfl⟩
  | cons field fields ih =>
    obtain ⟨item, items, rfl⟩ := List.exists_cons_of_length_eq_add_one hlen
    obtain ⟨before, text, after, hb, htext, ha, hitem⟩ := h item List.mem_cons_self
    have hends : Ends (after ++ (sequence false items ++ Byte.closeBracket :: rest)) :=
      (ends_sequence items (ends_closeBracket rest)).blank_append ha
    have hrun := (hf field List.mem_cons_self).answers htext hb ha [] _ blank_nil hends
    rw [List.nil_append, ← hitem] at hrun
    have hstep : readElements (field :: fields) state first
        (ws ++ (sequence first (item :: items) ++ Byte.closeBracket :: rest)) =
        (put state (field, item)).bind fun state' => readElements fields state' false
          (after ++ (sequence false items ++ Byte.closeBracket :: rest)) := by
      simp only [readElements, nextElement_append hws, sequence, hitem, List.append_assoc,
        nextElement_open hb htext.starts]
      rw [← hitem, hrun, put]
      rcases readAll field.reader item with e | update <;> rfl
    rw [hstep, List.zip_cons_cons, List.foldlM_cons]
    rcases put state (field, item) with e | state'
    · exact ⟨[], blank_nil, rfl⟩
    · exact ih (fun field' hmem => hf field' (List.mem_cons_of_mem _ hmem)) (by simpa using hlen)
        (fun item' hmem => h item' (List.mem_cons_of_mem _ hmem)) ha state' false

end Field

namespace RecordShape

variable {shape : RecordShape σ α} {s : List UInt8}

/-- The record made of the state at the end, or what is missing of it. -/
def made (shape : RecordShape σ α) (missing : Nat → Mismatch) (state : σ) :
    Except ReadError α :=
  (shape.finish state).mapError fun i => .mismatch (missing i)

/-- A record is made by taking the members of its object one after the other. -/
theorem readAll_object (hf : ∀ field ∈ shape.fields, field.reader.IsLocal)
    {ms : List (String × List UInt8)} (h : ∀ m ∈ ms, IsJson m.2)
    (hs : Spaced (ObjectText ms) s) :
    readAll shape.reader s =
      (ms.foldlM (Field.take shape.fields) shape.start).bind (shape.made shape.missingMember) := by
  obtain ⟨before, text, after, hb, ⟨hws, hitems⟩, ha, rfl⟩ := hs
  have hskip := skipBlanks_append_cons (b := Byte.openBrace) hb (by decide)
  have hafter : skipBlanks after = [] := by simpa [skipBlanks] using skipBlanks_append ha []
  simp only [readAll, RecordShape.reader, Reader.byFirst, List.cons_append, hskip, readFrom,
    if_true, readObject, List.append_assoc, Field.readMembers_append hws, separated_eq_sequence,
    List.nil_append, Field.readMembers_sequence_eq hf h hitems]
  rcases ms.foldlM (Field.take shape.fields) shape.start with e | state
  · rfl
  simp only [Except.map, Except.bind, made]
  rcases shape.finish state with i | a
  · rfl
  · simp [Except.mapError, hafter]

/-- A record is made by putting the elements of its array into the fields one after the other. -/
theorem readAll_array (hf : ∀ field ∈ shape.fields, field.reader.IsLocal)
    {items : List (List UInt8)} (hlen : items.length = shape.fields.length)
    (h : ∀ item ∈ items, IsJson item) (hs : Spaced (ArrayText items) s) :
    readAll shape.reader s =
      ((shape.fields.zip items).foldlM Field.put shape.start).bind
        (shape.made shape.missingElement) := by
  obtain ⟨before, text, after, hb, ⟨hws⟩, ha, rfl⟩ := hs
  have hskip := skipBlanks_append_cons (b := Byte.openBracket) hb (by decide)
  have hafter : skipBlanks after = [] := by simpa [skipBlanks] using skipBlanks_append ha []
  have hne : Byte.openBracket ≠ Byte.openBrace := by decide
  obtain ⟨ws', hws', hread⟩ :=
    Field.readElements_sequence_eq hf hlen h hws shape.start true after
  simp only [readAll, RecordShape.reader, Reader.byFirst, List.cons_append, hskip, readFrom,
    if_neg hne, if_true, readArray, List.append_assoc, separated_eq_sequence, List.nil_append,
    hread]
  rcases (shape.fields.zip items).foldlM Field.put shape.start with e | state
  · rfl
  simp only [Except.map, Except.bind, made]
  rcases shape.finish state with i | a
  · rfl
  · have hclose : isBlank Byte.closeBracket = false := by decide
    simp [Except.mapError, endArray, skipBlanks_append_cons hws' hclose, keyword, hafter]

end RecordShape

end ContractHost.Json
