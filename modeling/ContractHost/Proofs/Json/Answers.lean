import Mathlib.Tactic.Common
import ContractHost.Json.Record
import ContractHost.Proofs.Json.Token

/-!
# What readers answer to well-formed texts

A reader answers a well-formed text in one way, wherever the text stands, whether it takes the text
for a value or refuses it (`Reader.IsLocal`): where a value ends can be seen without knowing what
follows.  So what a reader makes of an array is put together from what it makes of the texts of the
elements (`elements_sequence_eq`), and the same holds of an object and its members
(`members_sequence_eq`).
-/

namespace ContractHost.Json

open ContractHost.Decimal

variable {α β σ : Type}

/-- The reader answers the text in one way, behind any blanks and in front of anything that ends a
value. -/
def Reader.Answers (p : Reader α) (text : List UInt8) (r : Except ReadError α) : Prop :=
  ∀ before rest, Blank before → Ends rest →
    p.run (before ++ (text ++ rest)) = r.map fun a => (a, rest)

/-- The reader answers each well-formed text in one way. -/
def Reader.IsLocal (p : Reader α) : Prop := ∀ text, WellFormed text → ∃ r, p.Answers text r

section Answers

variable {p : Reader α} {text before after s tail : List UInt8} {r : Except ReadError α}

/-- The answer to a text is that of reading nothing else, with blanks around the text. -/
lemma Reader.Answers.readAll_eq (h : p.Answers text r) (hb : Blank before) (ha : Blank after) :
    readAll p (before ++ (text ++ after)) = r := by
  have hends : Ends after := by simpa using ends_nil.blank_append ha
  have hskip : skipBlanks after = [] := by simpa [skipBlanks] using skipBlanks_append ha []
  rw [readAll, h before after hb hends]
  rcases r with e | a
  · rfl
  · simp [Except.map, hskip]

/-- What a local reader answers to a text is what it makes of the text alone. -/
lemma Reader.IsLocal.answers (hp : p.IsLocal) (h : WellFormed text) (hb : Blank before)
    (ha : Blank after) : p.Answers text (readAll p (before ++ (text ++ after))) := by
  obtain ⟨r, hr⟩ := hp text h
  rwa [hr.readAll_eq hb ha]

/-- A local reader makes the same of a text with blanks around it as of the text. -/
lemma Reader.IsLocal.readAll_padded (hp : p.IsLocal) (h : WellFormed text) (hb : Blank before)
    (ha : Blank after) : readAll p (before ++ (text ++ after)) = readAll p text := by
  have hanswers := hp.answers h blank_nil blank_nil
  rw [hanswers.readAll_eq hb ha]
  simp

/-- What is read can be mapped. -/
lemma readAll_map (f : α → β) (p : Reader α) (s : List UInt8) :
    readAll (p.map f) s = (readAll p s).map f := by
  simp only [readAll, Reader.map]
  rcases p.run s with e | ⟨a, rest⟩
  · rfl
  · dsimp only
    split <;> rfl

/-- What is read by a local reader can be mapped. -/
lemma Reader.IsLocal.map (hp : p.IsLocal) (f : α → β) : (p.map f).IsLocal := by
  intro text h
  obtain ⟨r, hr⟩ := hp text h
  refine ⟨r.map f, fun before rest hb hrest => ?_⟩
  simp only [Reader.map, hr before rest hb hrest]
  rcases r with e | a <;> rfl

end Answers

/-! ## The first byte of a text -/

/-- By its first byte a text is a word, a numeral, a string, an array or an object. -/
lemma WellFormed.first_cases {b : UInt8} {s : List UInt8} (h : WellFormed (b :: s)) :
    b :: s ∈ words ∨ ((b = Byte.minus || isDigit b) = true ∧ NumeralForm (b :: s)) ∨
      (b = Byte.quote ∧ ∃ text, StringForm text ∧ s = text ++ [Byte.quote]) ∨
      (b = Byte.openBracket ∧ ∃ (ws : List UInt8) (items : List Padded), Blank ws ∧
        (∀ item ∈ items, WellFormed item.text) ∧
        s = ws ++ (separated (items.map Padded.bytes) ++ [Byte.closeBracket])) ∨
      (b = Byte.openBrace ∧ ∃ (ws : List UInt8) (items : List PaddedMember), Blank ws ∧
        (∀ item ∈ items, WellFormed item.value.text) ∧
        s = ws ++ (separated (items.map PaddedMember.bytes) ++ [Byte.closeBrace])) := by
  generalize htext : b :: s = text at h
  rcases h with hword | hnumeral | hstring | ⟨hws, hitems⟩ | ⟨hws, hitems⟩
  · exact .inl hword
  · obtain ⟨b', s', rfl, hb'⟩ := hnumeral.exists_cons
    obtain ⟨rfl, rfl⟩ := List.cons.inj htext
    exact .inr (.inl ⟨hb', hnumeral⟩)
  · obtain ⟨rfl, rfl⟩ := List.cons.inj htext
    exact .inr (.inr (.inl ⟨rfl, _, hstring, rfl⟩))
  · obtain ⟨rfl, rfl⟩ := List.cons.inj htext
    exact .inr (.inr (.inr (.inl ⟨rfl, _, _, hws, hitems, rfl⟩)))
  · obtain ⟨rfl, rfl⟩ := List.cons.inj htext
    exact .inr (.inr (.inr (.inr ⟨rfl, _, _, hws, hitems, rfl⟩)))

/-- The texts of the elements of an array are JSON, with their blanks. -/
lemma isJson_of_mem_map {items : List Padded} (h : ∀ item ∈ items, WellFormed item.text) :
    ∀ item ∈ items.map Padded.bytes, IsJson item := by
  intro item hmem
  obtain ⟨x, hx, rfl⟩ := List.mem_map.1 hmem
  exact Padded.spaced (h x hx)

/-- A text that starts like a numeral is one. -/
lemma WellFormed.numeralForm {b : UInt8} {s : List UInt8} (h : WellFormed (b :: s))
    (hb : (b = Byte.minus || isDigit b) = true) : NumeralForm (b :: s) := by
  rcases h.first_cases with hword | h | ⟨rfl, _⟩ | ⟨rfl, _⟩ | ⟨rfl, _⟩
  · simp only [words, List.mem_cons, List.cons.injEq, List.not_mem_nil, or_false] at hword
    rcases hword with ⟨rfl, _⟩ | ⟨rfl, _⟩ | ⟨rfl, _⟩ <;> exact absurd hb (by decide)
  · exact h.2
  all_goals exact absurd hb (by decide)

/-- A text that starts with a quote is a string. -/
lemma WellFormed.stringForm {s : List UInt8} (h : WellFormed (Byte.quote :: s)) :
    ∃ text, StringForm text ∧ s = text ++ [Byte.quote] := by
  rcases h.first_cases with hword | ⟨hb, _⟩ | ⟨_, h⟩ | ⟨hb, _⟩ | ⟨hb, _⟩
  · simp [words, Byte.quote, Byte.n] at hword
  · exact absurd hb (by decide)
  · exact h
  · exact absurd hb (by decide)
  · exact absurd hb (by decide)

/-- A text that starts with a bracket is an array. -/
lemma WellFormed.arrayForm {s : List UInt8} (h : WellFormed (Byte.openBracket :: s)) :
    ∃ (ws : List UInt8) (items : List Padded), Blank ws ∧
      (∀ item ∈ items, WellFormed item.text) ∧
      s = ws ++ (separated (items.map Padded.bytes) ++ [Byte.closeBracket]) := by
  rcases h.first_cases with hword | ⟨hb, _⟩ | ⟨hb, _⟩ | ⟨_, h⟩ | ⟨hb, _⟩
  · simp [words, Byte.openBracket, Byte.n] at hword
  · exact absurd hb (by decide)
  · exact absurd hb (by decide)
  · exact h
  · exact absurd hb (by decide)

/-- A text that starts with a brace is an object. -/
lemma WellFormed.objectForm {s : List UInt8} (h : WellFormed (Byte.openBrace :: s)) :
    ∃ (ws : List UInt8) (items : List PaddedMember), Blank ws ∧
      (∀ item ∈ items, WellFormed item.value.text) ∧
      s = ws ++ (separated (items.map PaddedMember.bytes) ++ [Byte.closeBrace]) := by
  rcases h.first_cases with hword | ⟨hb, _⟩ | ⟨hb, _⟩ | ⟨hb, _⟩ | ⟨_, h⟩
  · simp [words, Byte.openBrace, Byte.n] at hword
  · exact absurd hb (by decide)
  · exact absurd hb (by decide)
  · exact absurd hb (by decide)
  · exact h

/-- A text that starts like `null` is `null`. -/
lemma WellFormed.eq_null {s : List UInt8} (h : WellFormed (Byte.n :: s)) : s = Byte.ull := by
  rcases h.first_cases with hword | ⟨hb, _⟩ | ⟨hb, _⟩ | ⟨hb, _⟩ | ⟨hb, _⟩
  · simpa [words, Byte.n] using hword
  · exact absurd hb (by decide)
  · exact absurd hb (by decide)
  · exact absurd hb (by decide)
  · exact absurd hb (by decide)

/-! ## Scalars -/

/-- A text that is no array and no object is answered alike whatever stands behind it. -/
lemma WellFormed.exists_scalar {b : UInt8} {s : List UInt8} (h : WellFormed (b :: s))
    (hbracket : b ≠ Byte.openBracket) (hbrace : b ≠ Byte.openBrace) :
    ∃ r : Except ReadError Value, ∀ rest, Ends rest →
      scalar b (s ++ rest) = r.map fun v => (v, rest) := by
  rcases h.first_cases with hword | ⟨hb, hnumeral⟩ | ⟨rfl, text, hstring, rfl⟩ | h | h
  · simp only [words, List.mem_cons, List.cons.injEq, List.not_mem_nil, or_false] at hword
    rcases hword with ⟨rfl, rfl⟩ | ⟨rfl, rfl⟩ | ⟨rfl, rfl⟩
    · exact ⟨.ok .null, fun rest _ => rfl⟩
    · exact ⟨.ok (.boolean true), fun rest _ => rfl⟩
    · exact ⟨.ok (.boolean false), fun rest _ => rfl⟩
  · obtain ⟨r, hr⟩ := hnumeral.exists_number
    refine ⟨r.map .number, fun rest hrest => ?_⟩
    rw [scalar_of_startsNumeral hb, ← List.cons_append, hr rest hrest]
    rcases r with e | n <;> rfl
  · obtain ⟨r, hr⟩ := hstring.exists_stringBody
    refine ⟨r.map .string, fun rest _ => ?_⟩
    rw [List.append_assoc, List.singleton_append, scalar_quote, hr rest]
    rcases r with e | t <;> rfl
  · exact absurd h.1 hbracket
  · exact absurd h.1 hbrace

/-- A text of a kind that was not expected is refused alike whatever stands behind it. -/
lemma WellFormed.exists_wrongKind {b : UInt8} {s : List UInt8} (h : WellFormed (b :: s))
    (expected : String) :
    ∃ e, ∀ rest, Ends rest → wrongKind expected b (s ++ rest) = e := by
  by_cases hbracket : b = Byte.openBracket
  · exact ⟨_, fun rest _ => if_pos hbracket⟩
  by_cases hbrace : b = Byte.openBrace
  · exact ⟨_, fun rest _ => by rw [wrongKind, if_neg hbracket, if_pos hbrace]⟩
  obtain ⟨r, hr⟩ := h.exists_scalar hbracket hbrace
  rcases r with e | v
  · exact ⟨e, fun rest hrest => by simp [wrongKind, hbracket, hbrace, hr rest hrest, Except.map]⟩
  · exact ⟨.mismatch (.invalidType v.found expected), fun rest hrest => by
      simp [wrongKind, hbracket, hbrace, hr rest hrest, Except.map]⟩

/-- A reader by the first byte is local if what it does from that byte on is. -/
lemma Reader.isLocal_byFirst {p : Reader α}
    {f : UInt8 → List UInt8 → Except ReadError (α × List UInt8)}
    (hf : ∀ s, p.run s = match skipBlanks s with
      | [] => .error .endOfInput
      | b :: rest => f b rest)
    (h : ∀ b s, WellFormed (b :: s) → ∃ r : Except ReadError α, ∀ rest, Ends rest →
      f b (s ++ rest) = r.map fun a => (a, rest)) : p.IsLocal := by
  intro text htext
  obtain ⟨b, s, rfl, hblank, _⟩ := htext.starts
  obtain ⟨r, hr⟩ := h b s htext
  refine ⟨r, fun before rest hb hrest => ?_⟩
  simp only [hf, List.cons_append, skipBlanks_append_cons hb hblank, hr rest hrest]

/-- Strings are read locally. -/
lemma Reader.isLocal_string : Reader.string.IsLocal := by
  refine Reader.isLocal_byFirst (fun _ => rfl) fun b s h => ?_
  by_cases hb : b = Byte.quote
  · subst hb
    obtain ⟨text, htext, rfl⟩ := h.stringForm
    obtain ⟨r, hr⟩ := htext.exists_stringBody
    refine ⟨r, fun rest _ => ?_⟩
    rw [stringFrom, if_pos rfl, List.append_assoc, List.singleton_append, hr]
  · obtain ⟨e, he⟩ := h.exists_wrongKind "a string"
    exact ⟨.error e, fun rest hrest => by rw [stringFrom, if_neg hb, he rest hrest]; rfl⟩

/-- Integers are read locally. -/
lemma Reader.isLocal_integer (range : IntegerRange) : (Reader.integer range).IsLocal := by
  refine Reader.isLocal_byFirst (fun _ => rfl) fun b s h => ?_
  by_cases hb : (b = Byte.minus || isDigit b) = true
  · obtain ⟨r, hr⟩ := (h.numeralForm hb).exists_number
    simp only [List.cons_append] at hr
    rcases r with e | n
    · exact ⟨.error e, fun rest hrest => by
        simp only [integerFrom, if_pos hb, hr rest hrest, Except.map]⟩
    rcases hn : range.ofNumber n with m | z
    · exact ⟨.error (.mismatch m), fun rest hrest => by
        simp only [integerFrom, if_pos hb, hr rest hrest, Except.map, hn]⟩
    · exact ⟨.ok z, fun rest hrest => by
        simp only [integerFrom, if_pos hb, hr rest hrest, Except.map, hn]⟩
  · obtain ⟨e, he⟩ := h.exists_wrongKind range.name
    exact ⟨.error e, fun rest hrest => by rw [integerFrom, if_neg hb, he rest hrest]; rfl⟩

/-! ## Arrays -/

section Arrays

variable {p : Reader α} {item tail s : List UInt8} {items : List (List UInt8)}

/-- What a local reader makes of the text of an element is the first part of what is made of the
elements. -/
lemma elements_cons_eq (hp : p.IsLocal) (h : IsJson item) (ht : Ends tail) (first : Bool) :
    elements p first (lead first ++ (item ++ tail)) =
      (readAll p item).bind fun a =>
        (elements p false tail).map fun (as, rest) => (a :: as, rest) := by
  obtain ⟨before, text, after, hb, htext, ha, rfl⟩ := h
  have hrun := hp.answers htext hb ha [] (after ++ tail) blank_nil (ht.blank_append ha)
  rw [List.nil_append] at hrun
  rw [elements_eq]
  simp only [List.append_assoc, nextElement_open hb htext.starts, hrun]
  rcases readAll p (before ++ (text ++ after)) with e | a
  · rfl
  · simp only [Except.map, Except.bind, elements_append ha]
    rcases elements p false tail with e | ⟨as, rest⟩ <;> rfl

/-- What a local reader makes of an array is what it makes of the elements one after the other. -/
lemma elements_sequence_eq (hp : p.IsLocal) (h : ∀ item ∈ items, IsJson item) (first : Bool)
    (rest : List UInt8) :
    elements p first (sequence first items ++ Byte.closeBracket :: rest) =
      (items.mapM (readAll p)).map fun as => (as, rest) := by
  induction items generalizing first with
  | nil =>
    rw [sequence, elements_eq, nextElement_close blank_nil]
    rfl
  | cons item items ih =>
    rw [sequence, List.append_assoc, List.append_assoc,
      elements_cons_eq hp (h item List.mem_cons_self) (ends_sequence _ (ends_closeBracket rest)),
      ih fun item' hmem => h item' (List.mem_cons_of_mem _ hmem), List.mapM_cons]
    rcases readAll p item with e | a
    · rfl
    · rcases items.mapM (readAll p) with e | as <;> rfl

/-- Lists are read locally if their elements are. -/
lemma Reader.IsLocal.list (hp : p.IsLocal) : (Reader.list p).IsLocal := by
  refine Reader.isLocal_byFirst (fun _ => rfl) fun b s h => ?_
  by_cases hb : b = Byte.openBracket
  · subst hb
    obtain ⟨ws, items, hws, hitems, rfl⟩ := h.arrayForm
    have hjson := isJson_of_mem_map hitems
    refine ⟨(items.map Padded.bytes).mapM (readAll p), fun rest _ => ?_⟩
    rw [listFrom, if_pos rfl, List.append_assoc, elements_append hws, List.append_assoc,
      separated_eq_sequence, List.singleton_append, elements_sequence_eq hp hjson]
  · obtain ⟨e, he⟩ := h.exists_wrongKind "a sequence"
    exact ⟨.error e, fun rest hrest => by rw [listFrom, if_neg hb, he rest hrest]; rfl⟩

/-- A list is made of what is made of the texts of its elements. -/
lemma readAll_list (hp : p.IsLocal) (h : ∀ item ∈ items, IsJson item)
    (hs : Spaced (ArrayText items) s) : readAll (Reader.list p) s = items.mapM (readAll p) := by
  obtain ⟨before, text, after, hb, htext, ha, rfl⟩ := hs
  rw [hp.list.readAll_padded (htext.wellFormed h) hb ha]
  obtain ⟨hws⟩ := htext
  have hskip := skipBlanks_cons (b := Byte.openBracket) (by decide)
  rw [readAll]
  simp only [Reader.list, Reader.byFirst, hskip, listFrom, if_true, elements_append hws,
    separated_eq_sequence, elements_sequence_eq hp h]
  rcases items.mapM (readAll p) with e | as <;> rfl

/-- A list is read from nothing but an array whose elements are read. -/
lemma exists_arrayText (hp : p.IsLocal) (hs : IsJson s) {as : List α}
    (h : readAll (Reader.list p) s = .ok as) :
    ∃ items, Spaced (ArrayText items) s ∧ (∀ item ∈ items, IsJson item) ∧
      items.mapM (readAll p) = .ok as := by
  obtain ⟨before, text, after, hb, htext, ha, rfl⟩ := hs
  obtain ⟨b, s, rfl, hblank, _⟩ := htext.starts
  by_cases hbracket : b = Byte.openBracket
  · subst hbracket
    obtain ⟨ws, items, hws, hitems, rfl⟩ := htext.arrayForm
    have hjson := isJson_of_mem_map hitems
    have hs : Spaced (ArrayText (items.map Padded.bytes)) (before ++ (Byte.openBracket ::
        (ws ++ (separated (items.map Padded.bytes) ++ [Byte.closeBracket])) ++ after)) :=
      ⟨before, _, after, hb, ⟨hws⟩, ha, rfl⟩
    rw [readAll_list hp hjson hs] at h
    exact ⟨_, hs, hjson, h⟩
  · rw [hp.list.readAll_padded htext hb ha] at h
    simp only [readAll, Reader.list, Reader.byFirst, skipBlanks_cons hblank, listFrom,
      if_neg hbracket] at h
    cases h

end Arrays

/-- Optional values are read locally if the values are. -/
lemma Reader.IsLocal.optional {p : Reader α} (hp : p.IsLocal) : (Reader.optional p).IsLocal := by
  intro text h
  obtain ⟨b, s, rfl, hblank, _⟩ := h.starts
  by_cases hb : b = Byte.n
  · subst hb
    obtain rfl := h.eq_null
    refine ⟨.ok none, fun before rest hbefore _ => ?_⟩
    simp [Reader.optional, skipBlanks_append_cons hbefore hblank, keyword, Except.map]
  · obtain ⟨r, hr⟩ := hp.map some _ h
    refine ⟨r, fun before rest hbefore hrest => ?_⟩
    have hrun := hr [] rest blank_nil hrest
    simp only [List.nil_append, List.cons_append] at hrun
    simp only [Reader.optional, List.cons_append, skipBlanks_append_cons hbefore hblank,
      if_neg hb, hrun]

/-- What does not start like `null` is read as an optional value just as without the option. -/
lemma readAll_optional {p : Reader α} (hp : p.IsLocal) {b : UInt8} {s before after : List UInt8}
    (h : WellFormed (b :: s)) (hne : b ≠ Byte.n) (hb : Blank before) (ha : Blank after) :
    readAll (Reader.optional p) (before ++ (b :: s ++ after)) =
      (readAll p (before ++ (b :: s ++ after))).map some := by
  obtain ⟨b', s', hs, hblank, _⟩ := h.starts
  obtain ⟨rfl, rfl⟩ := List.cons.inj hs
  rw [hp.optional.readAll_padded h hb ha, hp.readAll_padded h hb ha, ← readAll_map]
  simp only [readAll, Reader.optional, skipBlanks_cons hblank, if_neg hne]

/-! ## Objects -/

section Objects

variable {p : Reader α} {before name between value tail : List UInt8}

/-- What a local reader makes of the text of a member is the first part of what is made of the
members; `k` is what is made of the name. -/
lemma members_cons_eq (hp : p.IsLocal) {k : Except ReadError String}
    (hk : ∀ rest, stringBody (name ++ Byte.quote :: rest) = k.map fun key => (key, rest))
    (hb : Blank before) (hbetween : Blank between) (hvalue : IsJson value) (ht : Ends tail)
    (first : Bool) :
    members p first (lead first ++ (before ++ Byte.quote :: (name ++ Byte.quote ::
        (between ++ Byte.colon :: (value ++ tail))))) =
      k.bind fun key => (readAll p value).bind fun a =>
        (members p false tail).map fun (as, rest) => ((key, a) :: as, rest) := by
  obtain ⟨before', text, after, hb', htext, ha, rfl⟩ := hvalue
  have hrun := hp.answers htext hb' ha before' (after ++ tail) hb' (ht.blank_append ha)
  rw [members_eq]
  simp only [nextMember_open hb, hk]
  rcases k with e | key
  · rfl
  simp only [Except.map, Except.bind, colon_append hbetween, List.append_assoc, hrun]
  rcases readAll p (before' ++ (text ++ after)) with e | a
  · rfl
  simp only [members_append ha]
  rcases members p false tail with e | ⟨as, rest⟩ <;> rfl

/-- Members are answered alike whatever stands behind the brace. -/
lemma exists_members (hp : p.IsLocal) {items : List PaddedMember}
    (h : ∀ item ∈ items, WellFormed item.value.text) :
    ∃ r : Except ReadError (List (String × α)), ∀ first rest,
      members p first (sequence first (items.map PaddedMember.bytes) ++ Byte.closeBrace :: rest) =
        r.map fun as => (as, rest) := by
  induction items with
  | nil =>
    refine ⟨.ok [], fun first rest => ?_⟩
    rw [List.map_nil, sequence, members_eq, nextMember_close blank_nil]
    rfl
  | cons item items ih =>
    obtain ⟨r, hr⟩ := ih fun item' hmem => h item' (List.mem_cons_of_mem _ hmem)
    obtain ⟨k, hk⟩ := item.name_form.exists_stringBody
    have hvalue : IsJson item.value.bytes := Padded.spaced (h item List.mem_cons_self)
    refine ⟨k.bind fun key => (readAll p item.value.bytes).bind fun a =>
      r.map fun as => (key, a) :: as, fun first rest => ?_⟩
    have htail := ends_sequence (items.map PaddedMember.bytes) (ends_closeBrace rest)
    have hcons := members_cons_eq hp hk item.blank_before item.blank_between hvalue htail first
    simp only [List.map_cons, sequence, PaddedMember.bytes, List.append_assoc,
      List.cons_append] at hcons hr ⊢
    rw [hcons, hr]
    rcases k with e | key
    · rfl
    rcases readAll p item.value.bytes with e | a
    · rfl
    rcases r with e | as <;> rfl

/-- What a reader makes of a member that is given by its name and the text of its value. -/
def readMember (p : Reader α) (m : String × List UInt8) : Except ReadError (String × α) :=
  (readAll p m.2).map fun a => (m.1, a)

/-- What a local reader makes of an object is what it makes of the members one after the other. -/
lemma members_sequence_eq (hp : p.IsLocal) {ms : List (String × List UInt8)}
    {items : List (List UInt8)} (h : ∀ m ∈ ms, IsJson m.2)
    (hitems : List.Forall₂ MemberText ms items) (first : Bool) (rest : List UInt8) :
    members p first (sequence first items ++ Byte.closeBrace :: rest) =
      (ms.mapM (readMember p)).map fun as => (as, rest) := by
  induction hitems generalizing first with
  | nil =>
    rw [sequence, members_eq, nextMember_close blank_nil]
    rfl
  | @cons m item ms items hitem hitems ih =>
    obtain @⟨key, before, text, between, value, hb, hname, hbetween⟩ := hitem
    have hk : ∀ rest, stringBody (text ++ Byte.quote :: rest) =
        (Except.ok key).map fun key => (key, rest) := hname.stringBody_append
    have hvalue : IsJson value := h _ List.mem_cons_self
    have htail := ends_sequence items (ends_closeBrace rest)
    have hcons := members_cons_eq hp hk hb hbetween hvalue htail first
    have hrest := ih (fun m' hmem => h m' (List.mem_cons_of_mem _ hmem)) false
    simp only [sequence, List.append_assoc, List.cons_append] at hcons ⊢
    rw [hcons, hrest, List.mapM_cons, readMember]
    dsimp only [Except.bind]
    rcases readAll p value with e | a
    · rfl
    rcases ms.mapM (readMember p) with e | as <;> rfl

end Objects

/-! ## Values -/

namespace Value

/-- Reading a value gives the same answer wherever its text stands, if reading the parts does. -/
lemma exists_readWith {inner : Option (Reader Value)} (hinner : ∀ p ∈ inner, p.IsLocal)
    {text : List UInt8} (h : WellFormed text) :
    ∃ r : Except ReadError Value, ∀ before rest, Blank before → Ends rest →
      readWith inner (before ++ (text ++ rest)) = r.map fun v => (v, rest) := by
  obtain ⟨b, s, rfl, hblank, _⟩ := h.starts
  by_cases hbracket : b = Byte.openBracket
  · subst hbracket
    obtain ⟨ws, items, hws, hitems, rfl⟩ := h.arrayForm
    rcases inner with _ | p
    · refine ⟨.error .malformed, fun before rest hb _ => ?_⟩
      simp only [List.cons_append, readWith, skipBlanks_append_cons hb hblank, if_true]
      rfl
    have hjson := isJson_of_mem_map hitems
    refine ⟨((items.map Padded.bytes).mapM (readAll p)).map .array, fun before rest hb _ => ?_⟩
    simp only [List.cons_append, readWith, skipBlanks_append_cons hb hblank, if_true,
      List.append_assoc, elements_append hws, separated_eq_sequence, List.nil_append,
      elements_sequence_eq (hinner p rfl) hjson]
    rcases (items.map Padded.bytes).mapM (readAll p) with e | vs <;> rfl
  by_cases hbrace : b = Byte.openBrace
  · subst hbrace
    obtain ⟨ws, items, hws, hitems, rfl⟩ := h.objectForm
    rcases inner with _ | p
    · refine ⟨.error .malformed, fun before rest hb _ => ?_⟩
      simp only [List.cons_append, readWith, skipBlanks_append_cons hb hblank, if_neg hbracket,
        if_true]
      rfl
    obtain ⟨r, hr⟩ := exists_members (hinner p rfl) hitems
    refine ⟨r.map .object, fun before rest hb _ => ?_⟩
    simp only [List.cons_append, readWith, skipBlanks_append_cons hb hblank, if_neg hbracket,
      if_true, List.append_assoc, members_append hws, separated_eq_sequence, List.nil_append, hr]
    rcases r with e | ms <;> rfl
  · obtain ⟨r, hr⟩ := h.exists_scalar hbracket hbrace
    refine ⟨r, fun before rest hb hrest => ?_⟩
    simp only [List.cons_append, readWith, skipBlanks_append_cons hb hblank, if_neg hbracket,
      if_neg hbrace, hr rest hrest]

/-- Values are read locally, at whatever depth. -/
theorem isLocal_reader (n : Nat) : (Value.reader n).IsLocal := by
  induction n with
  | zero => exact fun text h => @exists_readWith none (by simp) text h
  | succ n ih => exact fun text h => @exists_readWith (some (reader n)) (by simpa using ih) text h

/-- The value of an object is made of what is made of the texts of its members. -/
lemma readAll_object (n : Nat) {ms : List (String × List UInt8)} {s : List UInt8}
    (h : ∀ m ∈ ms, IsJson m.2) (hs : Spaced (ObjectText ms) s) :
    readAll (Value.reader (n + 1)) s = (ms.mapM (readMember (Value.reader n))).map .object := by
  obtain ⟨before, text, after, hb, htext, ha, rfl⟩ := hs
  rw [(isLocal_reader _).readAll_padded (htext.wellFormed h) hb ha]
  obtain ⟨hws, hitems⟩ := htext
  have hskip := skipBlanks_cons (b := Byte.openBrace) (by decide)
  have hne : Byte.openBrace ≠ Byte.openBracket := by decide
  rw [readAll]
  simp only [run_reader_succ, readWith, hskip, if_neg hne, if_true, members_append hws,
    separated_eq_sequence, members_sequence_eq (isLocal_reader n) h hitems]
  rcases ms.mapM (readMember (Value.reader n)) with e | vs <;> rfl

/-- The value of an array is made of what is made of the texts of its elements. -/
lemma readAll_array (n : Nat) {items : List (List UInt8)} {s : List UInt8}
    (h : ∀ item ∈ items, IsJson item) (hs : Spaced (ArrayText items) s) :
    readAll (Value.reader (n + 1)) s = (items.mapM (readAll (Value.reader n))).map .array := by
  obtain ⟨before, text, after, hb, htext, ha, rfl⟩ := hs
  rw [(isLocal_reader _).readAll_padded (htext.wellFormed h) hb ha]
  obtain ⟨hws⟩ := htext
  have hskip := skipBlanks_cons (b := Byte.openBracket) (by decide)
  rw [readAll]
  simp only [run_reader_succ, readWith, hskip, if_true, elements_append hws,
    separated_eq_sequence, elements_sequence_eq (isLocal_reader n) h]
  rcases items.mapM (readAll (Value.reader n)) with e | vs <;> rfl

end Value

end ContractHost.Json
