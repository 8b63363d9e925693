import Mathlib.Data.List.Forall2
import Mathlib.Tactic.Common
import ContractHost.Proofs.Json.Written

/-!
# Well-formed texts

The texts that JSON allows by their form alone, whatever they stand for (`WellFormed`): numerals of
any size, strings whose escapes need not pair up and whose bytes need not encode characters, arrays
and objects at any depth, with blanks between all parts.  A whole text may have blanks around it
(`IsJson`).

Where only the texts of the parts matter and not what they mean, an array is given by the texts of
its elements (`ArrayText`), and an object by the names and the texts of its members
(`ObjectText`).
-/

namespace ContractHost.Json

open ContractHost.Decimal

/-! ## Numerals -/

/-- Digits and nothing else. -/
def AllDigits (s : List UInt8) : Prop := ∀ b ∈ s, isDigit b = true

/-- The whole part of a numeral: a zero, or digits of which the first is not zero. -/
inductive WholeForm : List UInt8 → Prop
  | zero : WholeForm [Byte.zero]
  | digits {b : UInt8} {s : List UInt8} : isDigit b = true → b ≠ Byte.zero → AllDigits s →
      WholeForm (b :: s)

/-- The fraction of a numeral, or nothing. -/
inductive FractionForm : List UInt8 → Prop
  | none : FractionForm []
  | digits {b : UInt8} {s : List UInt8} : isDigit b = true → AllDigits s →
      FractionForm (Byte.point :: b :: s)

/-- The exponent of a numeral, or nothing. -/
inductive ExponentForm : List UInt8 → Prop
  | none : ExponentForm []
  | digits {e b : UInt8} {sign s : List UInt8} : e = Byte.lowerE ∨ e = Byte.upperE →
      sign ∈ [[], [Byte.plus], [Byte.minus]] → isDigit b = true → AllDigits s →
      ExponentForm (e :: (sign ++ b :: s))

/-- A minus sign, if there is one. -/
def signBytes (negative : Bool) : List UInt8 := if negative then [Byte.minus] else []

/-- A numeral. -/
inductive NumeralForm : List UInt8 → Prop
  | mk (negative : Bool) {whole fraction exponent : List UInt8} : WholeForm whole →
      FractionForm fraction → ExponentForm exponent →
      NumeralForm (signBytes negative ++ (whole ++ (fraction ++ exponent)))

/-! ## Strings -/

/-- What may stand behind a backslash. -/
inductive EscapeForm : List UInt8 → Prop
  | letter {b : UInt8} {c : Char} : (b, c) ∈ shortEscapes → EscapeForm [b]
  | unit {ds : List UInt8} {n : Nat} : HexUnit ds n → EscapeForm (Byte.unit :: ds)

/-- What may stand between quotes. -/
inductive StringForm : List UInt8 → Prop
  | nil : StringForm []
  | plain {b : UInt8} {text : List UInt8} : b ≠ Byte.quote → b ≠ Byte.backslash → 32 ≤ b →
      StringForm text → StringForm (b :: text)
  | escaped {esc text : List UInt8} : EscapeForm esc → StringForm text →
      StringForm (Byte.backslash :: (esc ++ text))

/-! ## Values -/

/-- A text and the blanks around it. -/
structure Padded where
  before : List UInt8
  text : List UInt8
  after : List UInt8
  blank_before : Blank before
  blank_after : Blank after

/-- The text with its blanks. -/
def Padded.bytes (x : Padded) : List UInt8 := x.before ++ (x.text ++ x.after)

/-- The text of a value, the name in front of it, and the blanks around both. -/
structure PaddedMember where
  before : List UInt8
  name : List UInt8
  between : List UInt8
  value : Padded
  blank_before : Blank before
  name_form : StringForm name
  blank_between : Blank between

/-- The text of the member between the commas or braces around it. -/
def PaddedMember.bytes (x : PaddedMember) : List UInt8 :=
  x.before ++ Byte.quote :: (x.name ++ Byte.quote :: (x.between ++ Byte.colon :: x.value.bytes))

/-- The words `null`, `true` and `false`. -/
def words : List (List UInt8) := [Byte.n :: Byte.ull, 116 :: Byte.rue, 102 :: Byte.alse]

/-- The text of a value, from its first byte to its last. -/
inductive WellFormed : List UInt8 → Prop
  | word {text : List UInt8} : text ∈ words → WellFormed text
  | numeral {text : List UInt8} : NumeralForm text → WellFormed text
  | string {text : List UInt8} : StringForm text →
      WellFormed (Byte.quote :: (text ++ [Byte.quote]))
  | array {ws : List UInt8} {items : List Padded} : Blank ws →
      (∀ item ∈ items, WellFormed item.text) →
      WellFormed (Byte.openBracket ::
        (ws ++ (separated (items.map Padded.bytes) ++ [Byte.closeBracket])))
  | object {ws : List UInt8} {items : List PaddedMember} : Blank ws →
      (∀ item ∈ items, WellFormed item.value.text) →
      WellFormed (Byte.openBrace ::
        (ws ++ (separated (items.map PaddedMember.bytes) ++ [Byte.closeBrace])))

/-- A text of the kind given, with blanks around it. -/
def Spaced (P : List UInt8 → Prop) (s : List UInt8) : Prop :=
  ∃ before text after, Blank before ∧ P text ∧ Blank after ∧ s = before ++ (text ++ after)

/-- The text of a value with blanks around it. -/
def IsJson (s : List UInt8) : Prop := Spaced WellFormed s

variable {P : List UInt8 → Prop} {s text : List UInt8}

/-- Blanks behind blanks are blanks. -/
lemma Blank.append {ws ws' : List UInt8} (h : Blank ws) (h' : Blank ws') : Blank (ws ++ ws') :=
  fun b hb => (List.mem_append.1 hb).elim (h b) (h' b)

/-- No blanks are needed around a text. -/
lemma spaced_of (h : P text) : Spaced P text :=
  ⟨[], text, [], blank_nil, h, blank_nil, by simp⟩

/-- Blanks around a text do not matter to what it is. -/
lemma Spaced.imp {Q : List UInt8 → Prop} (h : ∀ text, P text → Q text) (hs : Spaced P s) :
    Spaced Q s := by
  obtain ⟨before, text, after, hb, ht, ha, rfl⟩ := hs
  exact ⟨before, text, after, hb, h text ht, ha, rfl⟩

/-- A text with blanks around it is padded. -/
lemma Spaced.exists_padded (h : Spaced P s) : ∃ x : Padded, P x.text ∧ x.bytes = s := by
  obtain ⟨before, text, after, hb, ht, ha, rfl⟩ := h
  exact ⟨⟨before, text, after, hb, ha⟩, ht, rfl⟩

/-- A padded text has blanks around it. -/
lemma Padded.spaced {x : Padded} (h : P x.text) : Spaced P x.bytes :=
  ⟨x.before, x.text, x.after, x.blank_before, h, x.blank_after, rfl⟩

/-! ## The beginning of a text -/

/-- The whole part of a numeral starts with a digit. -/
lemma WholeForm.exists_cons (h : WholeForm text) :
    ∃ b s, text = b :: s ∧ isDigit b = true := by
  rcases h with _ | ⟨hb, _, _⟩
  · exact ⟨_, _, rfl, by decide⟩
  · exact ⟨_, _, rfl, hb⟩

/-- A numeral starts with a minus sign or a digit. -/
lemma NumeralForm.exists_cons (h : NumeralForm text) :
    ∃ b s, text = b :: s ∧ (b = Byte.minus || isDigit b) = true := by
  obtain ⟨negative, hwhole, _, _⟩ := h
  rcases negative with _ | _
  · obtain ⟨b, s, rfl, hb⟩ := hwhole.exists_cons
    exact ⟨_, _, rfl, by simp [hb]⟩
  · exact ⟨_, _, rfl, by simp⟩

/-- What a value starts with is no blank, and nothing that ends an array. -/
lemma WellFormed.starts (h : WellFormed text) : Starts text := by
  rcases h with hword | hnumeral | _ | _ | _
  · simp only [words, List.mem_cons, List.not_mem_nil, or_false] at hword
    rcases hword with rfl | rfl | rfl <;> exact ⟨_, _, rfl, by decide, by decide⟩
  · obtain ⟨b, s, rfl, hb⟩ := hnumeral.exists_cons
    obtain ⟨hblank, _, _, hclose, _⟩ := startsNumeral_ne hb
    exact ⟨b, s, rfl, hblank, hclose⟩
  · exact ⟨_, _, rfl, by decide, by decide⟩
  · exact ⟨_, _, rfl, by decide, by decide⟩
  · exact ⟨_, _, rfl, by decide, by decide⟩

/-! ## Texts by the texts of their parts -/

/-- The text of a member of an object, given by its name and the text of its value. -/
inductive MemberText : String × List UInt8 → List UInt8 → Prop
  | mk {name : String} {before text between value : List UInt8} : Blank before →
      Spells text (textBytes name) → Blank between →
      MemberText (name, value)
        (before ++ Byte.quote :: (text ++ Byte.quote :: (between ++ Byte.colon :: value)))

/-- The text of an array, given by the texts of its elements. -/
inductive ArrayText : List (List UInt8) → List UInt8 → Prop
  | mk {ws : List UInt8} {items : List (List UInt8)} : Blank ws →
      ArrayText items (Byte.openBracket :: (ws ++ (separated items ++ [Byte.closeBracket])))

/-- The text of an object, given by the names and the texts of its members. -/
inductive ObjectText : List (String × List UInt8) → List UInt8 → Prop
  | mk {ms : List (String × List UInt8)} {ws : List UInt8} {items : List (List UInt8)} :
      Blank ws → List.Forall₂ MemberText ms items →
      ObjectText ms (Byte.openBrace :: (ws ++ (separated items ++ [Byte.closeBrace])))

/-- An escape has the form of one or of two. -/
lemma EscapeOf.stringForm {esc : List UInt8} {c : Char} (h : EscapeOf esc c)
    (ht : StringForm text) : StringForm (Byte.backslash :: (esc ++ text)) := by
  rcases h with hletter | ⟨_, hunit⟩ | ⟨_, hhigh, hlow⟩
  · exact .escaped (.letter hletter) ht
  · exact .escaped (.unit hunit) ht
  · have hpair : StringForm (Byte.backslash :: (Byte.unit :: _ ++ (Byte.backslash ::
        (Byte.unit :: _ ++ text)))) := .escaped (.unit hhigh) (.escaped (.unit hlow) ht)
    simpa using hpair

/-- What spells a text has the form of a string. -/
lemma Spells.stringForm {bytes : List UInt8} (h : Spells text bytes) : StringForm text := by
  induction h with
  | nil => exact .nil
  | plain hq hb hle _ ih => exact .plain hq hb hle ih
  | escaped hesc _ ih => exact hesc.stringForm ih

/-- Texts of values are padded texts. -/
lemma exists_map_bytes {items : List (List UInt8)} (h : ∀ item ∈ items, IsJson item) :
    ∃ xs : List Padded, (∀ x ∈ xs, WellFormed x.text) ∧ xs.map Padded.bytes = items := by
  induction items with
  | nil => exact ⟨[], by simp, rfl⟩
  | cons item items ih =>
    obtain ⟨x, hx, rfl⟩ := (h item List.mem_cons_self).exists_padded
    obtain ⟨xs, hxs, rfl⟩ := ih fun item' hmem => h item' (List.mem_cons_of_mem _ hmem)
    exact ⟨x :: xs, by simpa using ⟨hx, hxs⟩, rfl⟩

/-- Texts of members are padded members. -/
lemma exists_map_memberBytes {ms : List (String × List UInt8)} {items : List (List UInt8)}
    (h : ∀ m ∈ ms, IsJson m.2) (hitems : List.Forall₂ MemberText ms items) :
    ∃ xs : List PaddedMember, (∀ x ∈ xs, WellFormed x.value.text) ∧
      xs.map PaddedMember.bytes = items := by
  induction hitems with
  | nil => exact ⟨[], by simp, rfl⟩
  | cons hitem _ ih =>
    obtain ⟨xs, hxs, rfl⟩ := ih fun m hmem => h m (List.mem_cons_of_mem _ hmem)
    obtain ⟨hbefore, hname, hbetween⟩ := hitem
    obtain ⟨x, hx, hbytes⟩ := (h _ List.mem_cons_self).exists_padded
    refine ⟨⟨_, _, _, x, hbefore, hname.stringForm, hbetween⟩ :: xs, by simpa using ⟨hx, hxs⟩, ?_⟩
    simp [PaddedMember.bytes, hbytes]

/-- An array of values is well-formed. -/
lemma ArrayText.wellFormed {items : List (List UInt8)} (h : ArrayText items s)
    (hitems : ∀ item ∈ items, IsJson item) : WellFormed s := by
  obtain ⟨hws⟩ := h
  obtain ⟨xs, hxs, rfl⟩ := exists_map_bytes hitems
  exact .array hws hxs

/-- An object whose members are values is well-formed. -/
lemma ObjectText.wellFormed {ms : List (String × List UInt8)} (h : ObjectText ms s)
    (hms : ∀ m ∈ ms, IsJson m.2) : WellFormed s := by
  obtain ⟨hws, hitems⟩ := h
  obtain ⟨xs, hxs, rfl⟩ := exists_map_memberBytes hms hitems
  exact .object hws hxs

/-! ## Texts without blanks -/

/-- The text of a member, without blanks. -/
def memberBytes (m : String × List UInt8) : List UInt8 := stringLiteral m.1 ++ Byte.colon :: m.2

/-- The text of an array, given by those of its elements, without blanks. -/
def arrayBytes (items : List (List UInt8)) : List UInt8 :=
  Byte.openBracket :: (separated items ++ [Byte.closeBracket])

/-- The text of an object, given by those of its members, without blanks. -/
def objectBytes (items : List (List UInt8)) : List UInt8 :=
  Byte.openBrace :: (separated items ++ [Byte.closeBrace])

/-- No blanks are needed in a member. -/
lemma memberText_memberBytes (m : String × List UInt8) : MemberText m (memberBytes m) := by
  have htext := @MemberText.mk m.1 [] _ [] m.2 blank_nil (spells_flatMap (textBytes m.1)) blank_nil
  simpa [memberBytes, stringLiteral] using htext

/-- No blanks are needed in an array. -/
lemma arrayText_arrayBytes (items : List (List UInt8)) : ArrayText items (arrayBytes items) :=
  .mk blank_nil

/-- No blanks are needed in an object. -/
lemma objectText_objectBytes {ms : List (String × List UInt8)} {items : List (List UInt8)}
    (h : List.Forall₂ MemberText ms items) : ObjectText ms (objectBytes items) :=
  .mk blank_nil h

/-- No blanks are needed in an object or in its members. -/
lemma objectText_map_memberBytes (ms : List (String × List UInt8)) :
    ObjectText ms (objectBytes (ms.map memberBytes)) :=
  objectText_objectBytes
    (List.forall₂_map_right_iff.2 (List.forall₂_same.2 fun m _ => memberText_memberBytes m))

end ContractHost.Json
