import Mathlib.Data.List.Forall2
import Mathlib.Tactic.Common
import ContractHost.Json.Shape
import ContractHost.Proofs.Json.Scalar

/-!
# Values are read from their texts

Every value without floating-point numbers and without integers too large for a word is read from
each of its texts, provided that its arrays and objects nest no deeper than the reader allows
(`Value.Plain.reads`).  What is written for the value is one of these texts
(`Value.Plain.hasText_write`).  The readers of a known shape take the texts of their strings and
integers too, so that one text may be read either way.
-/

namespace ContractHost.Json

open ContractHost.Decimal

/-! ## Scalars -/

/-- The values without parts that are read from their texts. -/
inductive Value.IsScalar : Value → Prop
  | null : IsScalar .null
  | boolean (b : Bool) : IsScalar (.boolean b)
  | integer {z : Int} : IsExact z → IsScalar (.number (.integer z))
  | string (s : String) : IsScalar (.string s)

/-- A numeral starts with a minus sign or with one of the ten digits. -/
lemma startsNumeral_cases {b : UInt8} (h : (b = Byte.minus || isDigit b) = true) :
    ∃ n, n ∈ [45, 48, 49, 50, 51, 52, 53, 54, 55, 56, 57] ∧ b = UInt8.ofNat n := by
  refine ⟨b.toNat, ?_, by simp⟩
  simp only [isDigit, Bool.or_eq_true, Bool.and_eq_true, decide_eq_true_eq] at h
  rcases h with rfl | ⟨hlow, hhigh⟩
  · decide
  · have hlow : 48 ≤ b.toNat := UInt8.le_iff_toNat_le.1 hlow
    have hhigh : b.toNat ≤ 57 := UInt8.le_iff_toNat_le.1 hhigh
    simp only [List.mem_cons, List.not_mem_nil, or_false]
    omega

/-- A scalar that starts like a numeral is a number. -/
lemma scalar_of_startsNumeral {b : UInt8} (h : (b = Byte.minus || isDigit b) = true)
    (s : List UInt8) :
    scalar b s = (number (b :: s)).map fun (n, rest) => (.number n, rest) := by
  obtain ⟨n, hn, rfl⟩ := startsNumeral_cases h
  simp only [List.mem_cons, List.not_mem_nil, or_false] at hn
  rcases hn with rfl | rfl | rfl | rfl | rfl | rfl | rfl | rfl | rfl | rfl | rfl <;> rfl

/-- A scalar that starts with a quote is a string. -/
lemma scalar_quote (s : List UInt8) :
    scalar Byte.quote s = (stringBody s).map fun (text, rest) => (.string text, rest) := rfl

/-- What a numeral starts with is no blank and no bracket. -/
lemma startsNumeral_ne {b : UInt8} (h : (b = Byte.minus || isDigit b) = true) :
    isBlank b = false ∧ b ≠ Byte.openBracket ∧ b ≠ Byte.openBrace ∧ b ≠ Byte.closeBracket ∧
      b ≠ Byte.n := by
  obtain ⟨n, hn, rfl⟩ := startsNumeral_cases h
  have : ∀ n ∈ [45, 48, 49, 50, 51, 52, 53, 54, 55, 56, 57],
      isBlank (UInt8.ofNat n) = false ∧ UInt8.ofNat n ≠ Byte.openBracket ∧
        UInt8.ofNat n ≠ Byte.openBrace ∧ UInt8.ofNat n ≠ Byte.closeBracket ∧
        UInt8.ofNat n ≠ Byte.n := by decide
  exact this n hn

/-- A scalar is read from its text, from the first byte on. -/
lemma Value.IsScalar.scalar_append {v : Value} {text : List UInt8} (hv : v.IsScalar)
    (ht : v.HasText text) :
    ∃ b s, text = b :: s ∧ isBlank b = false ∧ b ≠ Byte.openBracket ∧ b ≠ Byte.openBrace ∧
      b ≠ Byte.closeBracket ∧ ∀ rest, Ends rest → scalar b (s ++ rest) = .ok (v, rest) := by
  rcases ht with _ | _ | _ | z | ht | _ | _
  · exact ⟨_, _, rfl, by decide, by decide, by decide, by decide, fun rest _ => rfl⟩
  · exact ⟨_, _, rfl, by decide, by decide, by decide, by decide, fun rest _ => rfl⟩
  · exact ⟨_, _, rfl, by decide, by decide, by decide, by decide, fun rest _ => rfl⟩
  · obtain _ | _ | hz | _ := hv
    obtain ⟨b, s, hs, hb⟩ := intBytes_eq_cons z
    obtain ⟨hblank, hbracket, hbrace, hclose, _⟩ := startsNumeral_ne hb
    refine ⟨b, s, hs, hblank, hbracket, hbrace, hclose, fun rest hr => ?_⟩
    have hnumber := number_intBytes hz hr
    rw [hs, List.cons_append] at hnumber
    rw [scalar_of_startsNumeral hb, hnumber]
    rfl
  · refine ⟨_, _, rfl, by decide, by decide, by decide, by decide, fun rest _ => ?_⟩
    rw [scalar_quote, ht.isKey rest]
    rfl
  · cases hv
  · cases hv

/-! ## Values -/

/-- A value that is read from its texts: no floating-point numbers, no integers too large for a
word, and arrays and objects at most so many levels deep. -/
inductive Value.Plain : Nat → Value → Prop
  | scalar {n : Nat} {v : Value} : v.IsScalar → Plain n v
  | array {n : Nat} {vs : List Value} : (∀ v ∈ vs, Plain n v) → Plain (n + 1) (.array vs)
  | object {n : Nat} {ms : List (String × Value)} :
      (∀ m ∈ ms, Plain n m.2) → Plain (n + 1) (.object ms)

section

variable {α : Type} {p : Reader α} {a : α} {v : Value} {s : List UInt8}

/-- Blanks around a text do not matter to a reader. -/
lemma Value.HasPaddedText.readsPadded (hs : v.HasPaddedText s)
    (h : ∀ text, v.HasText text → p.Reads text a) : p.ReadsPadded s a := by
  obtain ⟨hbefore, htext, hafter⟩ := hs
  exact ⟨_, _, _, hbefore, h _ htext, hafter, rfl⟩

/-- The text of a member is read as that member, if the texts of its value are read. -/
lemma MemberHasText.isMember {m : String × Value} (hs : MemberHasText m s)
    (h : ∀ text, m.2.HasText text → p.Reads text a) : IsMember p m.1 s a := by
  obtain ⟨hbefore, hname, hbetween, hvalue⟩ := hs
  exact ⟨_, _, _, _, hbefore, hname.isKey, hbetween, hvalue.readsPadded h, by simp⟩

end

/-- Values at most one level deeper than those of a reader are read with that reader inside. -/
lemma Value.run_reader_succ (n : Nat) (s : List UInt8) :
    (Value.reader (n + 1)).run s = readWith (some (Value.reader n)) s := rfl

/-- A scalar is read by every reader of values. -/
lemma Value.IsScalar.reads {v : Value} {text : List UInt8} (hv : v.IsScalar)
    (ht : v.HasText text) (n : Nat) : (Value.reader n).Reads text v := by
  obtain ⟨b, s, rfl, hblank, hbracket, hbrace, hclose, hscalar⟩ := hv.scalar_append ht
  refine ⟨⟨b, s, rfl, hblank, hclose⟩, fun before rest hb hr => ?_⟩
  have hread : ∀ inner, readWith inner (before ++ (b :: s ++ rest)) = .ok (v, rest) := by
    intro inner
    simp only [List.cons_append, readWith, skipBlanks_append_cons hb hblank, if_neg hbracket,
      if_neg hbrace, hscalar rest hr]
  cases n with
  | zero => exact hread none
  | succ n => exact hread (some (Value.reader n))

/-- A plain value is read from each of its texts. -/
theorem Value.Plain.reads {n : Nat} {v : Value} (h : Value.Plain n v) :
    ∀ text, v.HasText text → (Value.reader n).Reads text v := by
  -- By induction on how the value is plain: the parts are read by the reader one level down.
  induction h with
  | scalar hv => exact fun text ht => hv.reads ht _
  | @array n vs _ ih =>
    intro text ht
    rcases ht with _ | _ | _ | _ | _ | @⟨_, ws, items, hws, hitems⟩ | _
    have hread : List.Forall₂ (Value.reader n).ReadsPadded items vs :=
      (((List.forall₂_and_left vs items).2 ⟨ih, hitems⟩).imp fun _ _ h => h.2.readsPadded h.1).flip
    refine ⟨⟨_, _, rfl, by decide, by decide⟩, fun before rest hb _ => ?_⟩
    have hskip := skipBlanks_append_cons (b := Byte.openBracket) hb (by decide)
    simp only [List.cons_append, List.append_assoc, Value.run_reader_succ, readWith, hskip,
      if_true, List.nil_append, elements_append hws, separated_eq_sequence, elements_sequence hread]
    rfl
  | @object n ms _ ih =>
    intro text ht
    rcases ht with _ | _ | _ | _ | _ | _ | @⟨_, ws, items, hws, hitems⟩
    have hread : List.Forall₂ (fun item m => IsMember (Value.reader n) m.1 item m.2) items ms :=
      (((List.forall₂_and_left ms items).2 ⟨ih, hitems⟩).imp fun _ _ h => h.2.isMember h.1).flip
    refine ⟨⟨_, _, rfl, by decide, by decide⟩, fun before rest hb _ => ?_⟩
    have hskip := skipBlanks_append_cons (b := Byte.openBrace) hb (by decide)
    have hne : Byte.openBrace ≠ Byte.openBracket := by decide
    simp only [List.cons_append, List.append_assoc, Value.run_reader_succ, readWith, hskip,
      if_neg hne, if_true, List.nil_append, members_append hws, separated_eq_sequence,
      members_sequence hread]
    rfl

/-! ## Written values -/

/-- How a member of an object is written. -/
def memberText (m : String × Value) : List UInt8 :=
  stringLiteral m.1 ++ Byte.colon :: m.2.write

/-- The elements of an array are written one by one. -/
lemma writeElements_eq (vs : List Value) : writeElements vs = vs.map Value.write := by
  induction vs with
  | nil => rfl
  | cons v vs ih => rw [writeElements, ih, List.map_cons]

/-- The members of an object are written one by one. -/
lemma writeMembers_eq (ms : List (String × Value)) : writeMembers ms = ms.map memberText := by
  induction ms with
  | nil => rfl
  | cons m ms ih => rw [writeMembers, ih, List.map_cons, memberText]

/-- What is written for a member is a text of it, if what is written for its value is. -/
lemma memberHasText_memberText {m : String × Value} (h : m.2.HasText m.2.write) :
    MemberHasText m (memberText m) := by
  have htext := MemberHasText.mk blank_nil (spells_flatMap (textBytes m.1)) blank_nil h.padded
  simpa [memberText, stringLiteral] using htext

/-- What is written for a scalar is a text of it. -/
lemma Value.IsScalar.hasText_write {v : Value} (h : v.IsScalar) : v.HasText v.write := by
  rcases h with _ | b | @⟨z, _⟩ | s
  · exact .null
  · cases b
    · exact .false
    · exact .true
  · exact .integer z
  · exact .string (spells_flatMap (textBytes s))

/-- What is written for a plain value is a text of it. -/
theorem Value.Plain.hasText_write {n : Nat} {v : Value} (h : Value.Plain n v) :
    v.HasText v.write := by
  induction h with
  | scalar hv => exact hv.hasText_write
  | @array n vs _ ih =>
    have hitems : List.Forall₂ Value.HasPaddedText vs (writeElements vs) := by
      rw [writeElements_eq, List.forall₂_map_right_iff, List.forall₂_same]
      exact fun v hv => (ih v hv).padded
    exact .array blank_nil hitems
  | @object n ms _ ih =>
    have hitems : List.Forall₂ MemberHasText ms (writeMembers ms) := by
      rw [writeMembers_eq, List.forall₂_map_right_iff, List.forall₂_same]
      exact fun m hm => memberHasText_memberText (ih m hm)
    exact .object blank_nil hitems

/-! ## Values of a known shape -/

/-- The texts of a string are read as a string. -/
lemma reads_string {s : String} {text : List UInt8} (h : (Value.string s).HasText text) :
    Reader.string.Reads text s := by
  rcases h with _ | _ | _ | _ | hs | _ | _
  refine ⟨⟨_, _, rfl, by decide, by decide⟩, fun before rest hb _ => ?_⟩
  have hskip := skipBlanks_append_cons (b := Byte.quote) hb (by decide)
  have hkey := hs.isKey rest
  simp only [List.append_assoc, List.singleton_append] at hkey
  simp [Reader.string, Reader.byFirst, hskip, stringFrom, hkey]

/-- An exact integer of the range is read as an integer of it. -/
lemma reads_intBytes {r : IntegerRange} {z : Int} (hz : IsExact z) (hlow : r.least ≤ z)
    (hhigh : z ≤ r.greatest) : (Reader.integer r).Reads (intBytes z) z := by
  obtain ⟨b, s, hs, hb⟩ := intBytes_eq_cons z
  obtain ⟨hblank, _, _, hclose, _⟩ := startsNumeral_ne hb
  refine ⟨⟨b, s, hs, hblank, hclose⟩, fun before rest hbefore hr => ?_⟩
  have hnumber := number_intBytes hz hr
  rw [hs, List.cons_append] at hnumber ⊢
  have hin : r.least ≤ z ∧ z ≤ r.greatest := ⟨hlow, hhigh⟩
  simp only [Reader.integer, Reader.byFirst, skipBlanks_append_cons hbefore hblank, integerFrom,
    if_pos hb, hnumber, IntegerRange.ofNumber, if_pos hin]

/-- What does not start like `null` is read as a value that is there. -/
lemma Reader.Reads.optional {α : Type} {p : Reader α} {text : List UInt8} {a : α}
    (h : p.Reads text a) (hn : text.head? ≠ some Byte.n) :
    (Reader.optional p).Reads text (some a) := by
  refine ⟨h.starts, fun before rest hb hr => ?_⟩
  obtain ⟨b, s, rfl, hblank, _⟩ := h.starts
  have hne : b ≠ Byte.n := by
    rintro rfl
    exact hn rfl
  have hrun := (h.map some).run_append [] rest blank_nil hr
  simp only [List.cons_append, List.nil_append] at hrun ⊢
  simp only [Reader.optional, skipBlanks_append_cons hb hblank, if_neg hne, hrun]

/-- The word `null` is read as nothing. -/
lemma Reader.reads_optional_null {α : Type} (p : Reader α) :
    (Reader.optional p).Reads (Byte.n :: Byte.ull) none := by
  refine ⟨⟨_, _, rfl, by decide, by decide⟩, fun before rest hb _ => ?_⟩
  have hskip := skipBlanks_append_cons (b := Byte.n) hb (by decide)
  simp [Reader.optional, hskip, keyword]

end ContractHost.Json
