import Mathlib.Tactic.Common
import ContractHost.Proofs.Reason.Parts

/-!
# Senders by their literals

The text of a sender is a list of integer literals, or `null` (`SenderText`).  The sender of a
reason is read straight from its text, the sender of the details is taken from a value that was read
before.  Both make the same of it: the bytes of the literals, if every one of them is a signed byte,
and nothing else (`SenderText.toOption_readAll`, `SenderText.senderOf?_eq`).

No other text is read as a sender (`exists_senderText`).
-/

namespace ContractHost

open Json (Literal IsJson Spaced ArrayText)

/-! ## Lists that are gone through twice -/

/-- A list is gone through in two rounds just as in one. -/
lemma bind_mapM {α β γ : Type} (f : α → Option β) (g : β → Option γ) (xs : List α) :
    ((xs.mapM f).bind fun ys => ys.mapM g) = xs.mapM fun x => (f x).bind g := by
  induction xs with
  | nil => rfl
  | cons x xs ih =>
    rw [List.mapM_cons, List.mapM_cons, ← ih]
    rcases f x with _ | y
    · rfl
    rcases xs.mapM f with _ | ys
    · simp
    · simp [List.mapM_cons]

/-- Lists are gone through alike if their elements are taken alike. -/
lemma mapM_eq_of_forall₂ {α β γ : Type} {f : α → Option γ} {g : β → Option γ} {xs : List α}
    {ys : List β} (h : List.Forall₂ (fun x y => f x = g y) xs ys) : xs.mapM f = ys.mapM g := by
  induction h with
  | nil => rfl
  | cons hxy _ ih => rw [List.mapM_cons, List.mapM_cons, hxy, ih]

/-! ## Texts of senders -/

/-- The text of a sender: a list of literals or, if there is none, `null`. -/
inductive SenderText : Option (List Literal) → List UInt8 → Prop
  | list {ls : List Literal} {items : List (List UInt8)} {s : List UInt8} :
      List.Forall₂ (fun l : Literal => Spaced (· = l.bytes)) ls items →
      Spaced (ArrayText items) s → SenderText (some ls) s
  | null {s : List UInt8} : Spaced (· = Json.Byte.n :: Json.Byte.ull) s → SenderText none s

/-- The text of a sender or, if there is none, possibly no text. -/
inductive SenderGiven : Option (List Literal) → Option (List UInt8) → Prop
  | given {ls : Option (List Literal)} {s : List UInt8} : SenderText ls s →
      SenderGiven ls (some s)
  | leftOut : SenderGiven none none

/-- The bytes that literals give, if every one is a signed byte. -/
def bytes? (ls : List Literal) : Option (List Int8) :=
  ls.mapM fun l => (l.taken .i8).map Int8.ofInt

/-- Every literal that is there is a signed byte. -/
def AreBytes (ls : Option (List Literal)) : Prop := ∀ l ∈ ls.getD [], l.InRange .i8

/-- Literals of signed bytes give their values, and no other literals give bytes. -/
lemma bytes?_eq (ls : List Literal) :
    ((∀ l ∈ ls, l.InRange .i8) → bytes? ls = some (ls.map fun l => Int8.ofInt l.value)) ∧
      ((¬∀ l ∈ ls, l.InRange .i8) → bytes? ls = none) := by
  induction ls with
  | nil => exact ⟨fun _ => rfl, fun h => absurd (fun l hl => absurd hl List.not_mem_nil) h⟩
  | cons l ls ih =>
    rw [List.forall_mem_cons, bytes?, List.mapM_cons, ← bytes?]
    by_cases hl : l.InRange .i8
    · rw [Literal.taken, if_pos hl]
      constructor
      · rintro ⟨_, hls⟩
        rw [ih.1 hls]
        rfl
      · intro hnot
        rw [ih.2 fun hls => hnot ⟨hl, hls⟩]
        rfl
    · rw [Literal.taken, if_neg hl]
      exact ⟨fun h => absurd h.1 hl, fun _ => rfl⟩

/-- The value of a literal of a signed byte is that of the byte. -/
lemma toInt_ofInt_value {l : Literal} (h : l.InRange .i8) :
    (Int8.ofInt l.value).toInt = l.value := by
  obtain ⟨hlow, hhigh, _⟩ := h
  exact Int8.toInt_ofInt_of_le hlow (Int.lt_add_one_of_le hhigh)

namespace SenderText

variable {ls : Option (List Literal)} {s : List UInt8}

/-- The elements of the text of a sender are texts of values. -/
lemma isJson_of_forall₂ {ls : List Literal} {items : List (List UInt8)}
    (h : List.Forall₂ (fun l : Literal => Spaced (· = l.bytes)) ls items) :
    ∀ item ∈ items, IsJson item := by
  induction h with
  | nil => exact fun item hitem => absurd hitem List.not_mem_nil
  | @cons l _ _ _ hitem _ ih =>
    rw [List.forall_mem_cons]
    exact ⟨hitem.imp fun text (htext : text = l.bytes) => htext ▸ l.wellFormed, ih⟩

/-- The text of a sender is JSON. -/
lemma isJson (h : SenderText ls s) : IsJson s := by
  rcases h with ⟨hitems, hs⟩ | hs
  · exact hs.imp fun text htext => htext.wellFormed (isJson_of_forall₂ hitems)
  · exact hs.imp fun text (htext : text = _) => htext ▸ .word (by simp [Json.words])

/-- The literals in the text of a sender are taken one by one. -/
lemma mapM_items {ls : List Literal} {items : List (List UInt8)} {f : List UInt8 → Option Int8}
    (h : List.Forall₂ (fun l : Literal => Spaced (· = l.bytes)) ls items)
    (hf : ∀ (l : Literal) item, Spaced (· = l.bytes) item →
      f item = (l.taken .i8).map Int8.ofInt) : items.mapM f = bytes? ls :=
  (mapM_eq_of_forall₂ (h.imp fun l item hitem => (hf l item hitem).symm)).symm

/-- The sender of a reason is read as the bytes of its literals, if all are signed bytes. -/
theorem toOption_readAll (h : SenderText ls s) :
    (Json.readAll RawReason.senderReader s).toOption = ls.mapM bytes? := by
  rcases h with @⟨ls, items, _, hitems, hs⟩ | hs
  · have hjson := isJson_of_forall₂ hitems
    have hread : Json.readAll RawReason.senderReader s =
        (Json.readAll (.list ((Json.Reader.integer .i8).map Int8.ofInt)) s).map some := by
      obtain ⟨before, text, after, hbefore, htext, hafter, rfl⟩ := hs
      have hform := htext.wellFormed hjson
      obtain ⟨_⟩ := htext
      exact Json.readAll_optional RawReason.isLocal_byteReader.list hform (by decide) hbefore hafter
    rw [hread, Json.readAll_list RawReason.isLocal_byteReader hjson hs, Json.toOption_map,
      Json.toOption_mapM, mapM_items hitems fun l item hitem => ?_, Option.mapM_some]
    · rfl
    · rw [Json.readAll_map, Json.toOption_map, l.toOption_readAll_integer Json.isWord_i8 hitem]
  · obtain ⟨before, _, after, hbefore, rfl, hafter, rfl⟩ := hs
    have hreads : RawReason.senderReader.Reads _ none := Json.Reader.reads_optional_null _
    rw [Json.readAll_of_readsPadded ⟨before, _, after, hbefore, hreads, hafter, rfl⟩]
    rfl

/-- The sender of the details is taken as the bytes of its literals, if all are signed bytes. -/
theorem senderOf?_eq (h : SenderText ls s) : Transfer.senderOf? s = ls.mapM bytes? := by
  rcases h with @⟨ls, items, _, hitems, hs⟩ | hs
  · have hread : Json.readAll Transfer.memberReader s =
        (items.mapM (Json.readAll (Json.Value.reader 124))).map .array :=
      Json.Value.readAll_array 124 (isJson_of_forall₂ hitems) hs
    have hvalue : ∀ vs, (Transfer.senderOfValue (.array vs)).toOption = (vs.mapM fun v =>
        ((Json.IntegerRange.i8.ofValue v).map Int8.ofInt).toOption).map some := by
      intro vs
      rw [← Json.toOption_mapM, ← Json.toOption_map]
      rfl
    have hitem : ∀ (l : Literal) item, Spaced (· = l.bytes) item →
        ((Json.readAll (Json.Value.reader 124) item).toOption.bind fun v =>
          ((Json.IntegerRange.i8.ofValue v).map Int8.ofInt).toOption) =
            (l.taken .i8).map Int8.ofInt := by
      intro l item hitem
      simp only [Json.toOption_map, ← l.toOption_readAll_value Json.isWord_i8 124 hitem,
        Option.map_bind]
      rfl
    rw [Transfer.senderOf?, hread, Json.toOption_map, Option.bind_map, Option.mapM_some,
      ← mapM_items hitems hitem, ← bind_mapM, ← Json.toOption_mapM, Option.map_eq_map,
      Option.map_bind]
    exact Option.bind_congr fun vs _ => hvalue vs
  · obtain ⟨before, _, after, hbefore, rfl, hafter, rfl⟩ := hs
    have hreads : Transfer.memberReader.Reads _ .null :=
      Json.Value.IsScalar.null.reads .null 125
    rw [Transfer.senderOf?,
      Json.readAll_of_readsPadded ⟨before, _, after, hbefore, hreads, hafter, rfl⟩]
    rfl

end SenderText

namespace SenderGiven

variable {ls : Option (List Literal)} {text : Option (List UInt8)}

/-- The sender of a reason is read as the bytes of its literals, if it is there. -/
lemma readGiven_eq (h : SenderGiven ls text) :
    (Json.readGiven RawReason.senderReader text).map Option.join = ls.mapM bytes? := by
  rcases h with hs | _
  · rw [Json.readGiven, Option.mapM_some, hs.toOption_readAll]
    rcases ls.mapM bytes? with _ | sender <;> rfl
  · rfl

/-- The sender of the details is taken as the bytes of its literals, if it is there. -/
lemma mapM_senderOf?_eq (h : SenderGiven ls text) :
    (text.mapM Transfer.senderOf?).map Option.join = ls.mapM bytes? := by
  rcases h with hs | _
  · rw [Option.mapM_some, hs.senderOf?_eq]
    rcases ls.mapM bytes? with _ | sender <;> rfl
  · rfl

end SenderGiven

/-- Literals that are there give bytes if all of them are signed bytes, and otherwise nothing. -/
lemma mapM_bytes?_cases (ls : Option (List Literal)) :
    (AreBytes ls ∧ ∃ sender, ls.mapM bytes? = some sender ∧
        sender.map (List.map Int8.toInt) = ls.map (List.map Literal.value)) ∨
      ¬AreBytes ls ∧ ls.mapM bytes? = none := by
  rcases ls with _ | ls
  · exact .inl ⟨fun l hl => absurd hl List.not_mem_nil, none, rfl, rfl⟩
  · by_cases hls : ∀ l ∈ ls, l.InRange .i8
    · refine .inl ⟨hls, some (ls.map fun l => Int8.ofInt l.value), ?_, ?_⟩
      · rw [Option.mapM_some, (bytes?_eq ls).1 hls]
        rfl
      · rw [Option.map_some, Option.map_some, List.map_map]
        exact congrArg some (List.map_congr_left fun l hl => toInt_ofInt_value (hls l hl))
    · refine .inr ⟨hls, ?_⟩
      rw [Option.mapM_some, (bytes?_eq ls).2 hls]
      rfl

/-- Signed bytes are read from nothing but literals of them. -/
lemma exists_literals {items : List (List UInt8)} {bs : List Int8}
    (h : items.mapM (Json.readAll ((Json.Reader.integer .i8).map Int8.ofInt)) = .ok bs) :
    ∃ ls : List Literal, List.Forall₂ (fun l : Literal => Spaced (· = l.bytes)) ls items ∧
      ∀ l ∈ ls, l.InRange .i8 := by
  have hall := mapM_eq_ok_iff.1 h
  clear h
  induction hall with
  | nil => exact ⟨[], .nil, fun l hl => absurd hl List.not_mem_nil⟩
  | cons hitem _ ih =>
    obtain ⟨ls, hls, hrange⟩ := ih
    rw [Json.readAll_map] at hitem
    obtain ⟨z, hz, _⟩ := Json.map_eq_ok hitem
    obtain ⟨l, hl, hin, _⟩ := Json.exists_literal hz
    exact ⟨l :: ls, .cons hl hls, List.forall_mem_cons.2 ⟨hin, hrange⟩⟩

/-- The sender of a reason is read from nothing but JSON. -/
lemma RawReason.recognizes_senderReader : senderReader.Recognizes :=
  ((Json.Reader.recognizes_integer .i8).map Int8.ofInt).list.optional

/-- A sender is read from nothing but the text of a sender whose literals are signed bytes. -/
theorem exists_senderText {s : List UInt8} {sender : Option (List Int8)}
    (h : Json.readAll RawReason.senderReader s = .ok sender) :
    ∃ ls, SenderText ls s ∧ AreBytes ls := by
  have hjson : IsJson s := RawReason.recognizes_senderReader.isJson h
  obtain ⟨before, text, after, hbefore, htext, hafter, rfl⟩ := id hjson
  obtain ⟨b, s, rfl, _⟩ := htext.starts
  by_cases hb : b = Json.Byte.n
  · subst hb
    obtain rfl := htext.eq_null
    refine ⟨none, .null ⟨before, _, after, hbefore, rfl, hafter, rfl⟩, ?_⟩
    exact fun l hl => absurd hl List.not_mem_nil
  · rw [RawReason.senderReader,
      Json.readAll_optional RawReason.isLocal_byteReader.list htext hb hbefore hafter] at h
    obtain ⟨bs, hbs, _⟩ := Json.map_eq_ok h
    obtain ⟨items, hs, _, hitems⟩ := Json.exists_arrayText RawReason.isLocal_byteReader hjson hbs
    obtain ⟨ls, hls, hrange⟩ := exists_literals hitems
    exact ⟨some ls, .list hls hs, hrange⟩

end ContractHost
