import Mathlib.Tactic.Common
import ContractHost.Proofs.Reason.Senders

/-!
# The ranges of numbers in reasons

A reason for a transfer has three places for integers: its own sender, the sender of its details and
the amount.  If integer literals of any length stand there, the reason is decoded just if each of
them lies in the range of its place and none is `-0`, and then the integers are those of the
literals; otherwise the text is refused as JSON (`Payload.decode_literals`).
-/

namespace ContractHost

open Json (Literal Spaced)

/-- The text of an amount is taken as the value of its literal, if that is a word. -/
lemma Transfer.amountOf?_eq {amount : Literal} {s : List UInt8} (hs : Spaced (· = amount.bytes) s) :
    amountOf? s = (amount.taken .u64).map fun z => UInt64.ofNat z.toNat := by
  rw [amountOf?, ← amount.toOption_readAll_value Json.isWord_u64 125 hs, Option.map_bind]
  refine Option.bind_congr fun v _ => ?_
  rw [amountOfValue, Json.toOption_map]
  rfl

/-- The word of a literal in its range has the value of the literal. -/
lemma toNat_ofNat_value {l : Literal} (h : l.InRange .u64) :
    ((UInt64.ofNat l.value.toNat).toNat : Int) = l.value := by
  obtain ⟨hlow, hhigh, _⟩ := h
  simp only [Json.IntegerRange.u64] at hlow hhigh
  rw [UInt64.toNat_ofNat', Nat.mod_eq_of_lt (by omega)]
  exact Int.toNat_of_nonneg hlow

namespace Payload

/-- The text of a reason for a transfer whose integers are given by literals: those of its own
sender and of the sender of its details, where these are there, and the amount. -/
inductive NumbersText (outer inner : Option (List Literal)) (amount : Literal) (s : List UInt8) :
    Prop
  | mk {sender innerSender : Option (List UInt8)} {amountText : List UInt8} :
      SenderGiven outer sender → SenderGiven inner innerSender →
      Spaced (· = amount.bytes) amountText → TextOf sender innerSender amountText s →
      NumbersText outer inner amount s

/-- Every literal lies in the range of its place. -/
def NumbersInRange (outer inner : Option (List Literal)) (amount : Literal) : Prop :=
  AreBytes outer ∧ AreBytes inner ∧ amount.InRange .u64

variable {outer inner : Option (List Literal)} {amount : Literal}

/-- A reason whose numbers lie in their ranges is read as these numbers. -/
lemma NumbersText.exists_ofBytes {s : List UInt8} (h : NumbersText outer inner amount s)
    (hrange : NumbersInRange outer inner amount) :
    ∃ sender t, ofBytes s = .ok ⟨transferKind, nonempty? sender, .transfer t⟩ ∧
      sender.map (List.map Int8.toInt) = outer.map (List.map Literal.value) ∧
      t.sender.map (List.map Int8.toInt) = inner.map (List.map Literal.value) ∧
      (t.amount.toNat : Int) = amount.value := by
  obtain @⟨sender, innerSender, amountText, houter, hinner, hamount, hs⟩ := h
  obtain ⟨houterRange, hinnerRange, hamountRange⟩ := hrange
  obtain ⟨_, bs, hbs, houterValue⟩ | ⟨hnot, _⟩ := mapM_bytes?_cases outer
  · obtain ⟨_, bs', hbs', hinnerValue⟩ | ⟨hnot, _⟩ := mapM_bytes?_cases inner
    · have hparts : Transfer.parts? innerSender amountText =
          some ⟨bs', UInt64.ofNat amount.value.toNat⟩ := by
        rw [Transfer.parts?, Transfer.amountOf?_eq hamount, hinner.mapM_senderOf?_eq, hbs',
          Literal.taken, if_pos hamountRange]
        rfl
      exact ⟨bs, _, hs.ofBytes_eq.1 bs _ (houter.readGiven_eq.trans hbs) hparts, houterValue,
        hinnerValue, toNat_ofNat_value hamountRange⟩
    · exact absurd hinnerRange hnot
  · exact absurd houterRange hnot

/-- A reason one of whose numbers lies outside its range is refused as JSON. -/
lemma NumbersText.exists_error {s : List UInt8} (h : NumbersText outer inner amount s)
    (hrange : ¬NumbersInRange outer inner amount) : ∃ e, ofBytes s = .error (.json e) := by
  obtain @⟨sender, innerSender, amountText, houter, hinner, hamount, hs⟩ := h
  refine hs.ofBytes_eq.2 ?_
  by_cases houterRange : AreBytes outer
  · refine .inr ?_
    rw [Transfer.parts?, Transfer.amountOf?_eq hamount, hinner.mapM_senderOf?_eq, Literal.taken]
    by_cases hamountRange : amount.InRange .u64
    · obtain ⟨hinnerRange, _⟩ | ⟨_, hnone⟩ := mapM_bytes?_cases inner
      · exact absurd ⟨houterRange, hinnerRange, hamountRange⟩ hrange
      · rw [hnone, if_pos hamountRange]
        rfl
    · rw [if_neg hamountRange]
      rfl
  · refine .inl ?_
    obtain ⟨hrange, _⟩ | ⟨_, hnone⟩ := mapM_bytes?_cases outer
    · exact absurd hrange houterRange
    · rw [houter.readGiven_eq, hnone]

/-- A reason for a transfer whose numbers are given by literals is decoded just if every one of them
lies in the range of its place and is not `-0`.  Then the senders have the bytes of the literals one
by one, of which nothing is left only for an empty sender of the reason itself, and the amount is
that of its literal.  Otherwise the text is refused as JSON. -/
theorem decode_literals {b : ByteArray} (h : NumbersText outer inner amount b.data.toList) :
    ((∃ p, decode b = .ok p) ↔ NumbersInRange outer inner amount) ∧
      (NumbersInRange outer inner amount → ∃ sender t,
        decode b = .ok ⟨transferKind, nonempty? sender, .transfer t⟩ ∧
        sender.map (List.map Int8.toInt) = outer.map (List.map Literal.value) ∧
        t.sender.map (List.map Int8.toInt) = inner.map (List.map Literal.value) ∧
        (t.amount.toNat : Int) = amount.value) ∧
      (¬NumbersInRange outer inner amount → ∃ e, decode b = .error (.json e)) := by
  refine ⟨⟨?_, fun hrange => ?_⟩, h.exists_ofBytes, h.exists_error⟩
  · rintro ⟨p, hp⟩
    by_contra hrange
    obtain ⟨e, he⟩ := h.exists_error hrange
    cases hp.symm.trans he
  · obtain ⟨sender, t, hdecode, _⟩ := h.exists_ofBytes hrange
    exact ⟨_, hdecode⟩

/-! ## Numbers at the ends of their ranges -/

/-- The text of a reason with both senders and an amount, without blanks. -/
def numbersBytes (outer inner : List Literal) (amount : Literal) : List UInt8 :=
  plainBytes (some (Json.arrayBytes (outer.map Literal.bytes)))
    (some (Json.arrayBytes (inner.map Literal.bytes))) amount.bytes

/-- Its numbers are given by the literals. -/
lemma numbersText_numbersBytes (outer inner : List Literal) (amount : Literal) :
    NumbersText (some outer) (some inner) amount (numbersBytes outer inner amount) := by
  have hlist : ∀ ls : List Literal,
      SenderText (some ls) (Json.arrayBytes (ls.map Literal.bytes)) := fun ls =>
    .list (List.forall₂_map_right_iff.2 (List.forall₂_same.2 fun l _ => Json.spaced_of rfl))
      (Json.spaced_of (Json.arrayText_arrayBytes _))
  refine .mk (.given (hlist outer)) (.given (hlist inner)) (Json.spaced_of rfl)
    (textOf_plainBytes ?_ ?_ (Json.spaced_of amount.wellFormed))
  · rintro _ ⟨⟩
    exact (hlist outer).isJson
  · rintro _ ⟨⟩
    exact (hlist inner).isJson

/-- The literals of the least and the greatest signed byte and of the greatest word are read as
their values; the literal of the next integer behind the words and `-0` are refused. -/
theorem decode_literals_extremes :
    (∃ sender t, decode ⟨(numbersBytes [.ofInt (-128), .ofInt 127] [.ofInt (-1)]
        (.ofInt 18446744073709551615)).toArray⟩ =
          .ok ⟨transferKind, nonempty? sender, .transfer t⟩ ∧
        sender.map (List.map Int8.toInt) = some [-128, 127] ∧
        t.sender.map (List.map Int8.toInt) = some [-1] ∧
        (t.amount.toNat : Int) = 18446744073709551615) ∧
      (∃ e, decode ⟨(numbersBytes [] [] (.ofInt 18446744073709551616)).toArray⟩ =
        .error (.json e)) ∧
      ∃ e, decode ⟨(numbersBytes [⟨true, [Json.Byte.zero], .zero⟩] [] (.ofInt 0)).toArray⟩ =
        .error (.json e) := by
  have hbytes : ∀ zs : List Int, (∀ z ∈ zs, -128 ≤ z ∧ z ≤ 127) →
      AreBytes (some (zs.map Literal.ofInt)) := by
    intro zs hzs l hl
    obtain ⟨z, hz, rfl⟩ := List.mem_map.1 hl
    exact Literal.inRange_ofInt.2 (hzs z hz)
  have hvalue : ∀ zs : List Int,
      (some (zs.map Literal.ofInt)).map (List.map Literal.value) = some zs := by
    intro zs
    rw [Option.map_some, List.map_map]
    exact congrArg some (List.map_id'' Literal.value_ofInt zs)
  refine ⟨?_, ?_, ?_⟩
  · have hrange : NumbersInRange (some ([-128, 127].map Literal.ofInt))
        (some ([-1].map Literal.ofInt)) (.ofInt 18446744073709551615) :=
      ⟨hbytes [-128, 127] (by decide), hbytes [-1] (by decide),
        Literal.inRange_ofInt.2 (by decide)⟩
    obtain ⟨sender, t, hdecode, houter, hinner, hamount⟩ :=
      (decode_literals (b := ⟨(numbersBytes ([-128, 127].map Literal.ofInt)
        ([-1].map Literal.ofInt) (.ofInt 18446744073709551615)).toArray⟩)
          (numbersText_numbersBytes _ _ _)).2.1 hrange
    exact ⟨sender, t, hdecode, houter.trans (hvalue _), hinner.trans (hvalue _),
      hamount.trans (Literal.value_ofInt _)⟩
  · refine (decode_literals (b := ⟨(numbersBytes [] [] (.ofInt 18446744073709551616)).toArray⟩)
      (numbersText_numbersBytes _ _ _)).2.2 fun hrange => ?_
    exact absurd (Literal.inRange_ofInt.1 hrange.2.2) (by decide)
  · refine (decode_literals
      (b := ⟨(numbersBytes [⟨true, [Json.Byte.zero], .zero⟩] [] (.ofInt 0)).toArray⟩)
        (numbersText_numbersBytes _ _ _)).2.2 fun hrange => ?_
    exact (hrange.1 _ List.mem_cons_self).2.2 ⟨rfl, rfl⟩

end Payload

end ContractHost
