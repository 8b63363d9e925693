import Mathlib.Tactic.Common
import ContractHost.Json.Printer
import ContractHost.Json.Record

/-!
# Texts that readers take for values

`p.Reads text a` says that the reader `p` takes `text` for the value `a` wherever it stands: behind
any blanks, and in front of anything that does not go on with a numeral.  The relation is closed
under the ways in which JSON puts texts together.  A text may be padded with blanks
(`ReadsPadded`); padded texts with commas between them make an array
(`elements_sequence`, `Reader.Reads.list`); a key, a colon and a padded text make a member
(`IsMember`); and a record is read off its members one by one, in whatever order they stand
(`Field.readMembers_member`, `RecordShape.run_object`).
-/

namespace ContractHost.Json

/-! ## Blanks, and the ends of values -/

/-- Nothing but blanks. -/
def Blank (s : List UInt8) : Prop := ∀ b ∈ s, isBlank b = true

/-- Whether a numeral can go on with the byte. -/
def continuesNumeral (b : UInt8) : Bool :=
  Decimal.isDigit b || b = Byte.point || b = Byte.lowerE || b = Byte.upperE

/-- What stands here ends a value: it does not go on with a numeral. -/
def Ends (s : List UInt8) : Prop := ∀ b rest, s = b :: rest → continuesNumeral b = false

@[simp] lemma blank_nil : Blank [] := by simp [Blank]

@[simp] lemma ends_nil : Ends [] := by simp [Ends]

/-- A byte that no numeral has ends a value. -/
lemma ends_cons {b : UInt8} {s : List UInt8} (h : continuesNumeral b = false) : Ends (b :: s) := by
  intro c rest hc
  cases hc
  exact h

/-- No numeral goes on with a blank. -/
lemma continuesNumeral_of_isBlank {b : UInt8} (h : isBlank b = true) :
    continuesNumeral b = false := by
  simp only [isBlank, Bool.or_eq_true, decide_eq_true_eq] at h
  rcases h with ((rfl | rfl) | rfl) | rfl <;> decide

/-- Blanks in front of the end of a value end it too. -/
lemma Ends.blank_append {ws s : List UInt8} (hw : Blank ws) (hs : Ends s) : Ends (ws ++ s) := by
  cases ws with
  | nil => exact hs
  | cons b ws =>
    exact ends_cons (continuesNumeral_of_isBlank (hw b List.mem_cons_self))

/-- Blanks in front are skipped. -/
lemma skipBlanks_append {ws : List UInt8} (hw : Blank ws) (s : List UInt8) :
    skipBlanks (ws ++ s) = skipBlanks s := by
  induction ws with
  | nil => rfl
  | cons b ws ih =>
    have hb : isBlank b = true := hw b List.mem_cons_self
    have hws : Blank ws := fun c hc => hw c (List.mem_cons_of_mem b hc)
    rw [List.cons_append, skipBlanks, List.dropWhile_cons_of_pos hb]
    exact ih hws

/-- Where no blank stands nothing is skipped. -/
lemma skipBlanks_cons {b : UInt8} (hb : isBlank b = false) (s : List UInt8) :
    skipBlanks (b :: s) = b :: s := by
  rw [skipBlanks, List.dropWhile_cons_of_neg (by simp [hb])]

/-- Skipping ends at a byte that is no blank. -/
lemma skipBlanks_append_cons {ws : List UInt8} {b : UInt8} (hw : Blank ws)
    (hb : isBlank b = false) (s : List UInt8) : skipBlanks (ws ++ b :: s) = b :: s := by
  rw [skipBlanks_append hw, skipBlanks_cons hb]

/-! ## Texts of values -/

/-- A text that starts a value: its first byte is no blank and does not close an array. -/
def Starts (text : List UInt8) : Prop :=
  ∃ b s, text = b :: s ∧ isBlank b = false ∧ b ≠ Byte.closeBracket

/-- A text that the reader takes for the value `a`, behind any blanks and in front of anything
that ends a value. -/
structure Reader.Reads {α : Type} (p : Reader α) (text : List UInt8) (a : α) : Prop where
  /-- The text starts a value. -/
  starts : Starts text
  /-- The reader takes the text and leaves what stands behind it. -/
  run_append : ∀ before rest, Blank before → Ends rest →
    p.run (before ++ (text ++ rest)) = .ok (a, rest)

/-- A text that the reader takes for the value `a`, with blanks around it. -/
def Reader.ReadsPadded {α : Type} (p : Reader α) (s : List UInt8) (a : α) : Prop :=
  ∃ before text after, Blank before ∧ p.Reads text a ∧ Blank after ∧ s = before ++ (text ++ after)

variable {α β σ : Type} {p : Reader α} {text : List UInt8} {a : α}

/-- What is read can be mapped. -/
lemma Reader.Reads.map (f : α → β) (h : p.Reads text a) : (p.map f).Reads text (f a) := by
  refine ⟨h.starts, fun before rest hb hr => ?_⟩
  simp only [Reader.map, h.run_append before rest hb hr]

/-- A reader of a whole text reads one text with blanks around it. -/
lemma readAll_of_readsPadded {s : List UInt8} (h : p.ReadsPadded s a) : readAll p s = .ok a := by
  obtain ⟨before, text, after, hb, ht, ha, rfl⟩ := h
  have hends : Ends (after ++ []) := ends_nil.blank_append ha
  have hrun := ht.run_append before after hb (by simpa using hends)
  have hskip : skipBlanks after = [] := by simpa [skipBlanks] using skipBlanks_append ha []
  simp [readAll, hrun, hskip]

/-! ## Arrays -/

/-- What stands in front of a part: nothing if it is the first, else a comma. -/
def lead (first : Bool) : List UInt8 := if first then [] else [Byte.comma]

/-- The parts that are left of an array or an object, each behind what stands in front of it. -/
def sequence (first : Bool) : List (List UInt8) → List UInt8
  | [] => []
  | item :: items => lead first ++ (item ++ sequence false items)

/-- Parts with commas between them are a sequence from its first part on. -/
lemma separated_eq_sequence (items : List (List UInt8)) :
    separated items = sequence true items := by
  induction items with
  | nil => rfl
  | cons item items ih =>
    cases items with
    | nil => simp [separated, sequence, lead]
    | cons item' items =>
      rw [separated, ih]
      simp [sequence, lead]

/-- A comma ends a value. -/
lemma ends_comma (s : List UInt8) : Ends (Byte.comma :: s) := ends_cons (by decide)

/-- The end of an array ends a value. -/
lemma ends_closeBracket (s : List UInt8) : Ends (Byte.closeBracket :: s) := ends_cons (by decide)

/-- The end of an object ends a value. -/
lemma ends_closeBrace (s : List UInt8) : Ends (Byte.closeBrace :: s) := ends_cons (by decide)

/-- The parts that are left, with what stands behind them, end the value of the part before. -/
lemma ends_sequence (items : List (List UInt8)) {tail : List UInt8} (ht : Ends tail) :
    Ends (sequence false items ++ tail) := by
  cases items with
  | nil => exact ht
  | cons item items => exact ends_comma _

/-- Behind blanks the bracket closes an array. -/
lemma nextElement_close {ws : List UInt8} (hw : Blank ws) (first : Bool) (rest : List UInt8) :
    nextElement first (ws ++ Byte.closeBracket :: rest) = .ok (.closed rest) := by
  simp [nextElement, skipBlanks_append_cons hw (show isBlank Byte.closeBracket = false by decide)]

/-- Behind its comma and blanks the next element of an array starts. -/
lemma nextElement_open {ws text : List UInt8} (hw : Blank ws) (ht : Starts text) (first : Bool)
    (rest : List UInt8) :
    nextElement first (lead first ++ (ws ++ (text ++ rest))) = .ok (.open (text ++ rest)) := by
  obtain ⟨b, s, rfl, hb, hne⟩ := ht
  have hskip := skipBlanks_append_cons hw hb (s ++ rest)
  have hcomma := skipBlanks_cons (b := Byte.comma) (by decide) (ws ++ b :: (s ++ rest))
  rw [List.cons_append]
  cases first with
  | true => simp [nextElement, lead, hskip, hne]
  | false =>
    have hc : Byte.comma ≠ Byte.closeBracket := by decide
    simp [nextElement, lead, hcomma, hskip, hne, hc]

/-- Blanks in front of the rest of an array are skipped. -/
lemma nextElement_append {ws : List UInt8} (hw : Blank ws) (first : Bool) (s : List UInt8) :
    nextElement first (ws ++ s) = nextElement first s := by
  simp only [nextElement, skipBlanks_append hw]

/-- The elements of an array are read one after the other. -/
lemma elements_eq (p : Reader α) (first : Bool) (s : List UInt8) :
    elements p first s =
      match nextElement first s with
      | .error e => .error e
      | .ok (.closed rest) => .ok ([], rest)
      | .ok (.open s₁) =>
        match p.run s₁ with
        | .error e => .error e
        | .ok (a, s₂) =>
          match elements p false s₂ with
          | .error e => .error e
          | .ok (as, rest) => .ok (a :: as, rest) := by
  -- The definition records the equations that its termination needs; here they are dropped.
  rw [elements]
  cases nextElement first s with
  | error e => rfl
  | ok next =>
    cases next with
    | closed rest => rfl
    | «open» s₁ =>
      dsimp only
      cases p.run s₁ <;> rfl

/-- Blanks in front of the rest of an array are skipped. -/
lemma elements_append {ws : List UInt8} (hw : Blank ws) (first : Bool) (s : List UInt8) :
    elements p first (ws ++ s) = elements p first s := by
  rw [elements_eq, nextElement_append hw, ← elements_eq]

/-- An element is read off the front of an array. -/
lemma elements_cons {item tail : List UInt8} (h : p.ReadsPadded item a) (ht : Ends tail)
    (first : Bool) :
    elements p first (lead first ++ (item ++ tail)) =
      match elements p false tail with
      | .error e => .error e
      | .ok (as, rest) => .ok (a :: as, rest) := by
  obtain ⟨before, text, after, hb, hp, ha, rfl⟩ := h
  have hrun : p.run (text ++ (after ++ tail)) = .ok (a, after ++ tail) :=
    hp.run_append [] (after ++ tail) blank_nil (ht.blank_append ha)
  rw [elements_eq]
  simp only [List.append_assoc, nextElement_open hb hp.starts, hrun, elements_append ha]

/-- Padded texts that are left of an array are read as its elements, up to the bracket. -/
lemma elements_sequence {items : List (List UInt8)} {as : List α}
    (h : List.Forall₂ p.ReadsPadded items as) (first : Bool) (rest : List UInt8) :
    elements p first (sequence first items ++ Byte.closeBracket :: rest) = .ok (as, rest) := by
  induction h generalizing first with
  | nil => rw [sequence, elements_eq, nextElement_close blank_nil]
  | cons hitem _ ih =>
    rw [sequence, List.append_assoc, List.append_assoc,
      elements_cons hitem (ends_sequence _ (ends_closeBracket rest)), ih]

/-- A list of padded texts in brackets is read as a sequence. -/
lemma Reader.Reads.list {ws : List UInt8} {items : List (List UInt8)} {as : List α}
    (hw : Blank ws) (h : List.Forall₂ p.ReadsPadded items as) :
    (Reader.list p).Reads (Byte.openBracket :: (ws ++ (separated items ++ [Byte.closeBracket])))
      as := by
  refine ⟨⟨_, _, rfl, by decide, by decide⟩, fun before rest hb _ => ?_⟩
  have hskip := skipBlanks_append_cons (b := Byte.openBracket) hb (by decide)
  simp [Reader.list, Reader.byFirst, hskip, listFrom, elements_append hw, separated_eq_sequence,
    elements_sequence h]

/-! ## Objects -/

/-- A text behind a quote, its closing quote included, that is read as the string. -/
def IsKey (text : List UInt8) (key : String) : Prop :=
  ∀ rest, stringBody (text ++ rest) = .ok (key, rest)

/-- A member of an object: a key, a colon, and a text that the reader takes for a value. -/
def IsMember (p : Reader α) (key : String) (s : List UInt8) (a : α) : Prop :=
  ∃ before text after value, Blank before ∧ IsKey text key ∧ Blank after ∧
    p.ReadsPadded value a ∧
    s = before ++ Byte.quote :: (text ++ (after ++ Byte.colon :: value))

/-- Behind blanks the brace closes an object. -/
lemma nextMember_close {ws : List UInt8} (hw : Blank ws) (first : Bool) (rest : List UInt8) :
    nextMember first (ws ++ Byte.closeBrace :: rest) = .ok (.closed rest) := by
  simp [nextMember, skipBlanks_append_cons hw (show isBlank Byte.closeBrace = false by decide)]

/-- Behind its comma and blanks the next member of an object starts. -/
lemma nextMember_open {ws : List UInt8} (hw : Blank ws) (first : Bool) (rest : List UInt8) :
    nextMember first (lead first ++ (ws ++ Byte.quote :: rest)) = .ok (.open rest) := by
  have hskip := skipBlanks_append_cons (b := Byte.quote) hw (by decide) rest
  have hcomma := skipBlanks_cons (b := Byte.comma) (by decide) (ws ++ Byte.quote :: rest)
  have hq : Byte.quote ≠ Byte.closeBrace := by decide
  have hc : Byte.comma ≠ Byte.closeBrace := by decide
  cases first with
  | true => simp [nextMember, lead, hskip, hq]
  | false => simp [nextMember, lead, hcomma, hskip, hc]

/-- Blanks in front of the rest of an object are skipped. -/
lemma nextMember_append {ws : List UInt8} (hw : Blank ws) (first : Bool) (s : List UInt8) :
    nextMember first (ws ++ s) = nextMember first s := by
  simp only [nextMember, skipBlanks_append hw]

/-- Behind blanks the colon of a member is read. -/
lemma colon_append {ws : List UInt8} (hw : Blank ws) (rest : List UInt8) :
    colon (ws ++ Byte.colon :: rest) = .ok rest := by
  simp [colon, skipBlanks_append_cons hw (show isBlank Byte.colon = false by decide), keyword]

/-- The members of an object are read one after the other. -/
lemma members_eq (p : Reader α) (first : Bool) (s : List UInt8) :
    members p first s =
      match nextMember first s with
      | .error e => .error e
      | .ok (.closed rest) => .ok ([], rest)
      | .ok (.open s₁) =>
        match stringBody s₁ with
        | .error e => .error e
        | .ok (key, s₂) =>
          match colon s₂ with
          | .error e => .error e
          | .ok s₃ =>
            match p.run s₃ with
            | .error e => .error e
            | .ok (a, s₄) =>
              match members p false s₄ with
              | .error e => .error e
              | .ok (as, rest) => .ok ((key, a) :: as, rest) := by
  rw [members]
  cases nextMember first s with
  | error e => rfl
  | ok next =>
    cases next with
    | closed rest => rfl
    | «open» s₁ =>
      dsimp only
      cases stringBody s₁ with
      | error e => rfl
      | ok r =>
        dsimp only
        cases colon r.2 with
        | error e => rfl
        | ok s₃ =>
          dsimp only
          cases p.run s₃ <;> rfl

/-- Blanks in front of the rest of an object are skipped. -/
lemma members_append {ws : List UInt8} (hw : Blank ws) (first : Bool) (s : List UInt8) :
    members p first (ws ++ s) = members p first s := by
  rw [members_eq, nextMember_append hw, ← members_eq]

/-- A member is read off the front of an object. -/
lemma members_cons {key : String} {item tail : List UInt8} (h : IsMember p key item a)
    (ht : Ends tail) (first : Bool) :
    members p first (lead first ++ (item ++ tail)) =
      match members p false tail with
      | .error e => .error e
      | .ok (as, rest) => .ok ((key, a) :: as, rest) := by
  obtain ⟨before, name, after, value, hb, hk, ha, ⟨before', text, after', hb', hp, ha', rfl⟩,
    rfl⟩ := h
  have hrun : p.run (before' ++ (text ++ (after' ++ tail))) = .ok (a, after' ++ tail) :=
    hp.run_append before' (after' ++ tail) hb' (ht.blank_append ha')
  rw [members_eq]
  simp only [List.append_assoc, List.cons_append, nextMember_open hb, hk _, colon_append ha, hrun,
    members_append ha']

/-- Texts of members that are left of an object are read as its members, up to the brace. -/
lemma members_sequence {items : List (List UInt8)} {as : List (String × α)}
    (h : List.Forall₂ (fun item m => IsMember p m.1 item m.2) items as) (first : Bool)
    (rest : List UInt8) :
    members p first (sequence first items ++ Byte.closeBrace :: rest) = .ok (as, rest) := by
  induction h generalizing first with
  | nil => rw [sequence, members_eq, nextMember_close blank_nil]
  | cons hitem _ ih =>
    rw [sequence, List.append_assoc, List.append_assoc,
      members_cons hitem (ends_sequence _ (ends_closeBrace rest)), ih]

/-! ## Records -/

namespace Field

variable {fields : List (Field σ)} {field : Field σ}

/-- The members of a record are read one after the other. -/
lemma readMembers_eq (fields : List (Field σ)) (state : σ) (first : Bool) (s : List UInt8) :
    readMembers fields state first s =
      match nextMember first s with
      | .error e => .error e
      | .ok (.closed rest) => .ok (state, rest)
      | .ok (.open s₁) =>
        match stringBody s₁ with
        | .error e => .error e
        | .ok (key, s₂) =>
          match fields.find? (·.name == key) with
          | none =>
            match colon s₂ with
            | .error e => .error e
            | .ok s₃ =>
              match passValue s₃ with
              | .error e => .error e
              | .ok s₄ => readMembers fields state false s₄
          | some field =>
            if field.given state then .error (.mismatch (.duplicateField key))
            else
              match colon s₂ with
              | .error e => .error e
              | .ok s₃ =>
                match field.reader.run s₃ with
                | .error e => .error e
                | .ok (update, s₄) => readMembers fields (update state) false s₄ := by
  rw [readMembers]
  cases nextMember first s with
  | error e => rfl
  | ok next =>
    cases next with
    | closed rest => rfl
    | «open» s₁ =>
      dsimp only
      cases stringBody s₁ with
      | error e => rfl
      | ok r =>
        dsimp only
        cases fields.find? (·.name == r.1) with
        | none =>
          dsimp only
          cases colon r.2 with
          | error e => rfl
          | ok s₃ =>
            dsimp only
            cases passValue s₃ <;> rfl
        | some field =>
          dsimp only
          cases colon r.2 with
          | error e => rfl
          | ok s₃ =>
            dsimp only
            cases field.reader.run s₃ <;> rfl

/-- Behind blanks the brace ends the members of a record. -/
lemma readMembers_close {ws : List UInt8} (hw : Blank ws) (fields : List (Field σ)) (state : σ)
    (first : Bool) (rest : List UInt8) :
    readMembers fields state first (ws ++ Byte.closeBrace :: rest) = .ok (state, rest) := by
  rw [readMembers_eq, nextMember_close hw]

/-- Blanks in front of the rest of a record are skipped. -/
lemma readMembers_append {ws : List UInt8} (hw : Blank ws) (state : σ) (first : Bool)
    (s : List UInt8) :
    readMembers fields state first (ws ++ s) = readMembers fields state first s := by
  rw [readMembers_eq, nextMember_append hw, ← readMembers_eq]

/-- A member that gives a field for the first time is read off the front of a record. -/
lemma readMembers_member {key : String} {state : σ} {update : σ → σ} {item tail : List UInt8}
    (hfind : fields.find? (·.name == key) = some field) (hgiven : field.given state = false)
    (h : IsMember field.reader key item update) (ht : Ends tail) (first : Bool) :
    readMembers fields state first (lead first ++ (item ++ tail)) =
      readMembers fields (update state) false tail := by
  obtain ⟨before, name, after, value, hb, hk, ha, ⟨before', text, after', hb', hp, ha', rfl⟩,
    rfl⟩ := h
  have hrun : field.reader.run (before' ++ (text ++ (after' ++ tail))) =
      .ok (update, after' ++ tail) :=
    hp.run_append before' (after' ++ tail) hb' (ht.blank_append ha')
  rw [readMembers_eq]
  simp only [List.append_assoc, List.cons_append, nextMember_open hb, hk _, hfind, hgiven,
    colon_append ha, hrun, readMembers_append ha', Bool.false_eq_true, if_false]

end Field

/-- An object is read as a record if its members lead to a state that the record can be made of,
whatever stands behind its brace. -/
lemma RecordShape.run_object {shape : RecordShape σ α} {body before : List UInt8} {state : σ}
    (hm : ∀ rest, Field.readMembers shape.fields shape.start true (body ++ rest) =
      .ok (state, rest))
    (hf : shape.finish state = .ok a) (hb : Blank before) (rest : List UInt8) :
    shape.reader.run (before ++ (Byte.openBrace :: body ++ rest)) = .ok (a, rest) := by
  have hskip := skipBlanks_append_cons (b := Byte.openBrace) hb (by decide)
  simp [RecordShape.reader, Reader.byFirst, hskip, readFrom, readObject, hm, hf]

end ContractHost.Json
