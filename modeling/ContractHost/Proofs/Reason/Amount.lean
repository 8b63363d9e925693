import Mathlib.Tactic.Common
import ContractHost.Proofs.Reason.RoundTrip

/-!
# The amount at the end of a reason

What is written for a reason consists of visible ASCII characters (`Payload.visible_bytes`), and the
last members of the two objects that it is made of are the details and the amount.  So it ends with
a colon, the digits of the amount and two braces, and there is no colon behind that one
(`Payload.bytes_eq_append`, `Decimal.IsNumeral`): the amount can be found from the end, whatever the
senders are.
-/

namespace ContractHost

/-! ## Numerals -/

namespace Decimal

/-- The digits of a number, without a sign and without zeros in front. -/
structure IsNumeral (n : Nat) (s : List UInt8) : Prop where
  /-- All of it are digits. -/
  isDigit_eq : ∀ b ∈ s, isDigit b = true
  /-- There are digits. -/
  ne_nil : s ≠ []
  /-- They stand for the number. -/
  value_eq : ofDigits (s.map digitOfByte) = n
  /-- A zero in front is the only digit. -/
  eq_of_head? : s.head? = some 48 → s = [48]

/-- What is written for a number are its digits. -/
lemma isNumeral_natBytes (n : Nat) : IsNumeral n (natBytes n) := by
  obtain ⟨d, ds, hds, hleading⟩ := digits_eq_cons n
  have hlt : ∀ e ∈ d :: ds, e < 10 := fun e he => lt_ten_of_mem_digits (n := n) (hds ▸ he)
  have hbytes : natBytes n = (d :: ds).map digitByte := by rw [natBytes, hds]
  have hread : (natBytes n).map digitOfByte = digits n := by
    rw [natBytes, List.map_map]
    exact (List.map_congr_left fun e he => digitOfByte_digitByte (lt_ten_of_mem_digits he)).trans
      (List.map_id _)
  refine ⟨fun b hb => ?_, ?_, ?_, fun hhead => ?_⟩
  · rw [hbytes] at hb
    obtain ⟨e, he, rfl⟩ := List.mem_map.1 hb
    exact isDigit_digitByte (hlt e he)
  · rw [hbytes]
    exact List.cons_ne_nil _ _
  · rw [hread, ofDigits_digits]
  · rw [hbytes, List.map_cons, List.head?_cons, Option.some.injEq] at hhead
    have hzero : d = 0 := by
      rw [← digitOfByte_digitByte (hlt d List.mem_cons_self), hhead]
      rfl
    obtain ⟨-, rfl⟩ := hleading.resolve_left (not_not.2 hzero)
    rw [hbytes, hzero]
    rfl

end Decimal

/-! ## Visible characters -/

namespace Json

/-- The bytes of visible ASCII characters. -/
def Visible (s : List UInt8) : Prop := ∀ b ∈ s, 0x21 ≤ b ∧ b ≤ 0x7e

instance (s : List UInt8) : Decidable (Visible s) :=
  List.decidableBAll (fun b => 0x21 ≤ b ∧ b ≤ 0x7e) s

@[simp] lemma visible_cons {b : UInt8} {s : List UInt8} :
    Visible (b :: s) ↔ (0x21 ≤ b ∧ b ≤ 0x7e) ∧ Visible s := List.forall_mem_cons

@[simp] lemma visible_append {s t : List UInt8} : Visible (s ++ t) ↔ Visible s ∧ Visible t :=
  List.forall_mem_append

/-- Parts with commas between them are visible, if the parts are. -/
lemma visible_separated {items : List (List UInt8)} (h : ∀ item ∈ items, Visible item) :
    Visible (separated items) := by
  rw [separated_eq_sequence]
  have hsequence : ∀ first, Visible (sequence first items) := by
    induction items with
    | nil => exact fun _ => by simp [sequence, Visible]
    | cons item items ih =>
      intro first
      obtain ⟨hitem, hitems⟩ := List.forall_mem_cons.1 h
      have hlead : Visible (lead first) := by cases first <;> decide
      simp only [sequence, visible_append]
      exact ⟨hlead, hitem, ih hitems false⟩
  exact hsequence true

/-- The digits of an integer and its sign are visible. -/
lemma visible_intBytes (z : Int) : Visible (Decimal.intBytes z) := by
  have hnat : ∀ n, Visible (Decimal.natBytes n) := by
    intro n b hb
    have hdigit := (Decimal.isNumeral_natBytes n).isDigit_eq b hb
    simp only [Decimal.isDigit, Bool.and_eq_true, decide_eq_true_eq] at hdigit
    exact ⟨UInt8.le_trans (by decide) hdigit.1, UInt8.le_trans hdigit.2 (by decide)⟩
  cases z with
  | ofNat n => exact hnat n
  | negSucc n => exact visible_cons.2 ⟨by decide, hnat (n + 1)⟩

/-- An object is visible, if its members are. -/
lemma visible_object {ms : List (String × Value)} (h : ∀ m ∈ ms, Visible (memberText m)) :
    Visible (Value.object ms).write := by
  have hmembers : Visible (separated (writeMembers ms)) := by
    refine visible_separated ?_
    rw [writeMembers_eq]
    exact List.forall_mem_map.2 h
  simp only [Value.write, List.cons_append, visible_cons, visible_append]
  exact ⟨by decide, hmembers, by decide⟩

/-- An array is visible, if its elements are. -/
lemma visible_array {vs : List Value} (h : ∀ v ∈ vs, Visible v.write) :
    Visible (Value.array vs).write := by
  have helements : Visible (separated (writeElements vs)) := by
    refine visible_separated ?_
    rw [writeElements_eq]
    exact List.forall_mem_map.2 h
  simp only [Value.write, List.cons_append, visible_cons, visible_append]
  exact ⟨by decide, helements, by decide⟩

/-- A member is visible, if its name and its value are. -/
lemma visible_memberText {name : String} {v : Value} (hname : Visible (stringLiteral name))
    (hv : Visible v.write) : Visible (memberText (name, v)) := by
  simp only [memberText, visible_append, visible_cons]
  exact ⟨hname, by decide, hv⟩

/-- An object ends with its last value and a brace. -/
lemma write_object_append (ms : List (String × Value)) (name : String) (v : Value) :
    ∃ front, (Value.object (ms ++ [(name, v)])).write =
      front ++ Byte.colon :: (v.write ++ [Byte.closeBrace]) := by
  have hlast : ∀ items last, ∀ first, ∃ front,
      sequence first (items ++ [last]) = front ++ last := by
    intro items last
    induction items with
    | nil => exact fun first => ⟨lead first, by simp [sequence]⟩
    | cons item items ih =>
      intro first
      obtain ⟨front, hfront⟩ := ih false
      exact ⟨lead first ++ (item ++ front), by simp [sequence, hfront]⟩
  obtain ⟨front, hfront⟩ := hlast (ms.map memberText) (memberText (name, v)) true
  refine ⟨Byte.openBrace :: (front ++ stringLiteral name), ?_⟩
  rw [Value.write, writeMembers_eq, separated_eq_sequence, List.map_append, List.map_singleton,
    hfront]
  simp [memberText]

end Json

/-! ## Reasons -/

namespace Payload

/-- The amount of the transfer. -/
def amount (p : Payload) : UInt64 :=
  match p.details with
  | .transfer t => t.amount

/-- What is written for a sender is visible. -/
lemma visible_senderMember (sender : Option (List Int8)) :
    ∀ m ∈ senderMember sender, Json.Visible (Json.memberText m) := by
  rcases sender with _ | _ | ⟨b, bs⟩
  · exact fun m hm => nomatch hm
  · exact fun m hm => nomatch hm
  · intro m hm
    obtain rfl := List.mem_singleton.1 hm
    refine Json.visible_memberText (by decide) (Json.visible_array fun v hv => ?_)
    obtain ⟨b, -, rfl⟩ := List.mem_map.1 hv
    exact Json.visible_intBytes b.toInt

/-- What is written for a reason of the known kind are visible characters. -/
lemma visible_bytes {p : Payload} (h : p.kind = transferKind) : Json.Visible p.bytes := by
  obtain ⟨kind, sender, ⟨t⟩⟩ := p
  obtain rfl : kind = transferKind := h
  have hnumber : Json.Visible (Json.Value.number (.integer t.amount.toNat)).write :=
    Json.visible_intBytes t.amount.toNat
  have hkind : Json.Visible (Json.Value.string transferKind).write := by decide
  have hdetails : Json.Visible (transferJson t).write := by
    refine Json.visible_object fun m hm => ?_
    rcases List.mem_append.1 hm with hm | hm
    · exact visible_senderMember t.sender m hm
    · obtain rfl := List.mem_singleton.1 hm
      exact Json.visible_memberText (by decide) hnumber
  refine Json.visible_object fun m hm => ?_
  rcases List.mem_append.1 hm with hm | hm
  · rcases List.mem_cons.1 hm with rfl | hm
    · exact Json.visible_memberText (by decide) hkind
    · exact visible_senderMember sender m hm
  · obtain rfl := List.mem_singleton.1 hm
    exact Json.visible_memberText (by decide) hdetails

/-- What is written for a reason ends with a colon, the digits of the amount and two braces. -/
lemma bytes_eq_append (p : Payload) :
    ∃ front, p.bytes = front ++ Json.Byte.colon ::
      (Decimal.natBytes p.amount.toNat ++ [Json.Byte.closeBrace, Json.Byte.closeBrace]) := by
  obtain ⟨kind, sender, ⟨t⟩⟩ := p
  obtain ⟨front, hfront⟩ := Json.write_object_append (("kind", .string kind) :: senderMember sender)
    "details" (transferJson t)
  obtain ⟨inner, hinner⟩ := Json.write_object_append (senderMember t.sender) "amount"
    (.number (.integer t.amount.toNat))
  refine ⟨front ++ Json.Byte.colon :: inner, ?_⟩
  have hbytes : (Payload.mk kind sender (.transfer t)).bytes =
      front ++ Json.Byte.colon :: ((transferJson t).write ++ [Json.Byte.closeBrace]) := hfront
  have htransfer : (transferJson t).write = inner ++ Json.Byte.colon ::
      (Decimal.natBytes t.amount.toNat ++ [Json.Byte.closeBrace]) := hinner
  rw [hbytes, htransfer]
  simp [amount]

end Payload

end ContractHost
