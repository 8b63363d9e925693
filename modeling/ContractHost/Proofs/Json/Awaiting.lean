import Mathlib.Tactic.Common
import ContractHost.Json.Record
import ContractHost.Proofs.Json.Beginnings
import ContractHost.Proofs.Json.Members

/-!
# Readers that await the end of a value

A reader awaits a value if it never mistakes a text of which the end was cut off: where it would
take the value from the whole text, it asks for more, or takes the value all the same, or takes all
that is there, as happens to a numeral (`Reader.Awaits`).  Inside an array or an object the last
makes no difference, since nothing is left to close it with; so what has an end of its own is
either awaited or taken as a whole (`elements_cut`, `members_cut`, `RecordShape.run_cut`).
-/

namespace ContractHost.Json

open ContractHost.Decimal

variable {α β σ : Type} {s t rest : List UInt8}

/-- Of a text from which the reader takes the value, without its end, it asks for more, or takes the
value as well, or takes all that is there for some value. -/
def Reader.Awaits (p : Reader α) (a : α) : Prop :=
  ∀ s t rest, p.run (s ++ t) = .ok (a, rest) →
    Agrees a rest t (p.run s) ∨ ∃ a', p.run s = .ok (a', [])

/-- A reader takes a text for one value only. -/
lemma Reader.Reads.unique {p : Reader α} {text : List UInt8} {a a' : α} (h : p.Reads text a)
    (h' : p.Reads text a') : a = a' := by
  have hrun := h.run_append [] [] blank_nil ends_nil
  rw [h'.run_append [] [] blank_nil ends_nil] at hrun
  cases hrun
  rfl

/-- A reader by the first byte awaits a value if it does so from that byte on. -/
lemma Reader.awaits_byFirst {p : Reader α} {a : α}
    {f : UInt8 → List UInt8 → Except ReadError (α × List UInt8)}
    (hf : ∀ s, p.run s = match skipBlanks s with
      | [] => .error .endOfInput
      | b :: rest => f b rest)
    (h : ∀ b s t rest, f b (s ++ t) = .ok (a, rest) →
      Agrees a rest t (f b s) ∨ ∃ a', f b s = .ok (a', [])) : p.Awaits a := by
  intro s t rest hrun
  rcases skipBlanks_cut s t with hblank | hskip
  · exact .inl (.inl (by rw [hf, hblank]))
  rcases hs : skipBlanks s with _ | ⟨b, s'⟩
  · exact .inl (.inl (by rw [hf, hs]))
  · rw [hf, hskip, hs] at hrun
    rw [hf, hs]
    exact h b s' t rest hrun

/-- What is read can be mapped. -/
lemma Reader.awaits_map {p : Reader α} {f : α → β} {b : β} (h : ∀ a, f a = b → p.Awaits a) :
    (p.map f).Awaits b := by
  intro s t rest hrun
  simp only [Reader.map] at hrun ⊢
  split at hrun
  next a rest' ha =>
    cases hrun
    rcases h a rfl s t rest ha with (hmore | ⟨rest', hsame, rfl⟩) | ⟨a', hall⟩
    · exact .inl (.inl (by rw [hmore]))
    · exact .inl (.inr ⟨rest', by rw [hsame], rfl⟩)
    · exact .inr ⟨f a', by rw [hall]⟩
  next => cases hrun

/-! ## Scalars -/

/-- Strings are awaited. -/
lemma Reader.awaits_string (a : String) : Reader.string.Awaits a := by
  refine Reader.awaits_byFirst (fun _ => rfl) fun b s t rest h => ?_
  unfold stringFrom at h ⊢
  split at h
  next hb =>
    rw [if_pos hb]
    exact .inl (isDecided_stringBody.agrees h)
  next => cases h

/-- Integers of a range that zero lies in are awaited. -/
lemma Reader.awaits_integer {r : IntegerRange} (hlow : r.least ≤ 0) (hhigh : 0 ≤ r.greatest)
    (z : Int) : (Reader.integer r).Awaits z := by
  refine Reader.awaits_byFirst (fun _ => rfl) fun b s t rest h => ?_
  obtain ⟨hb, hnumber, hin⟩ := integerFrom_eq_ok h
  have htake : ∀ z' rest', number (b :: s) = .ok (.integer z', rest') →
      r.least ≤ z' ∧ z' ≤ r.greatest → integerFrom r b s = .ok (z', rest') := by
    intro z' rest' hz' hin'
    simp only [integerFrom, if_pos hb, hz', IntegerRange.ofNumber_eq_ok_iff.2 ⟨rfl, hin'⟩]
  rw [← List.cons_append] at hnumber
  rcases number_cut hnumber with (hmore | ⟨rest', hsame, rfl⟩) | ⟨z', hz', hbetween⟩
  · exact .inl (.inl (by simp only [integerFrom, if_pos hb, hmore]))
  · exact .inl (.inr ⟨rest', htake z rest' hsame hin, rfl⟩)
  · exact .inr ⟨z', htake z' [] hz' (by omega)⟩

/-! ## Arrays -/

/-- An array is not closed where nothing stands. -/
lemma elements_nil (p : Reader α) : elements p false [] = .error .endOfInput := by
  rw [elements_eq]
  rfl

/-- The elements that are left of an array are awaited up to the bracket, if each of them is. -/
lemma elements_cut {p : Reader α} {first : Bool} {as : List α} (hp : ∀ a ∈ as, p.Awaits a)
    (h : elements p first (s ++ t) = .ok (as, rest)) :
    Agrees as rest t (elements p first s) := by
  generalize hu : s ++ t = u at h
  fun_induction elements p first u generalizing s as with
  | case1 => cases h
  | case2 first u rest' hnext =>
    cases h
    subst hu
    rcases (isDecided_nextElement first).cut hnext with hmore | ⟨next, hs, heq⟩
    · exact .inl (by rw [elements_eq, hmore])
    · rcases next with rest' | s₁ <;> cases heq
      exact .inr ⟨rest', by rw [elements_eq, hs], rfl⟩
  | case3 => cases h
  | case4 => cases h
  | case5 first u u₁ hnext a u₂ hrun as' rest' helements ih =>
    cases h
    subst hu
    rcases (isDecided_nextElement first).cut hnext with hmore | ⟨next, hs, heq⟩
    · exact .inl (by rw [elements_eq, hmore])
    rcases next with rest' | s₁ <;> cases heq
    rw [elements_eq, hs]
    rcases hp a List.mem_cons_self s₁ t u₂ hrun with (hmore | ⟨s₂, hsame, rfl⟩) | ⟨a', hall⟩
    · exact .inl (by simp only [hmore])
    · rcases ih (fun a' hmem => hp a' (List.mem_cons_of_mem a hmem)) rfl helements with
        hmore | ⟨rest', hrest, rfl⟩
      · exact .inl (by simp only [hsame, hmore])
      · exact .inr ⟨rest', by simp only [hsame, hrest], rfl⟩
    · exact .inl (by simp only [hall, elements_nil])

/-- Lists are awaited if their elements are. -/
lemma Reader.awaits_list {p : Reader α} {as : List α} (hp : ∀ a ∈ as, p.Awaits a) :
    (Reader.list p).Awaits as := by
  refine Reader.awaits_byFirst (fun _ => rfl) fun b s t rest h => ?_
  unfold listFrom at h ⊢
  split at h
  next hb =>
    rw [if_pos hb]
    exact .inl (elements_cut hp h)
  next => cases h

/-- Optional values are awaited if the values are. -/
lemma Reader.awaits_optional {p : Reader α} {a : Option α} (hp : ∀ x ∈ a, p.Awaits x) :
    (Reader.optional p).Awaits a := by
  refine Reader.awaits_byFirst (fun _ => rfl) fun b s t rest h => ?_
  split at h
  next hb =>
    rw [if_pos hb]
    split at h
    next rest' hkeyword =>
      cases h
      rcases (isDecided_keyword Byte.ull).cut hkeyword with hmore | ⟨rest', hs, rfl⟩
      · exact .inl (.inl (by rw [hmore]))
      · exact .inl (.inr ⟨rest', by rw [hs], rfl⟩)
    next => cases h
  next hb =>
    rw [if_neg hb]
    refine Reader.awaits_map (fun x hx => hp x ?_) (b :: s) t rest h
    rw [← hx]
    rfl

/-! ## Objects -/

/-- The start of a member that is cut off, up to its value: more is asked for, or the same is
read. -/
lemma memberStart_cut {first : Bool} {s₁ s₂ s₃ : List UInt8} {key : String}
    (hnext : nextMember first (s ++ t) = .ok (.open s₁)) (hkey : stringBody s₁ = .ok (key, s₂))
    (hcolon : colon s₂ = .ok s₃) :
    nextMember first s = .error .endOfInput ∨
      ∃ r₁, nextMember first s = .ok (.open r₁) ∧ (stringBody r₁ = .error .endOfInput ∨
        ∃ r₂, stringBody r₁ = .ok (key, r₂) ∧ (colon r₂ = .error .endOfInput ∨
          ∃ r₃, colon r₂ = .ok r₃ ∧ s₃ = r₃ ++ t)) := by
  rcases (isDecided_nextMember first).cut hnext with hmore | ⟨next, hs, heq⟩
  · exact .inl hmore
  rcases next with rest' | r₁ <;> cases heq
  rcases isDecided_stringBody.agrees hkey with hmore | ⟨r₂, hr₁, rfl⟩
  · exact .inr ⟨r₁, hs, .inl hmore⟩
  rcases isDecided_colon.cut hcolon with hmore | ⟨r₃, hr₂, rfl⟩
  · exact .inr ⟨r₁, hs, .inr ⟨r₂, hr₁, .inl hmore⟩⟩
  · exact .inr ⟨r₁, hs, .inr ⟨r₂, hr₁, .inr ⟨r₃, hr₂, rfl⟩⟩⟩

/-- An object is not closed where nothing stands. -/
lemma members_nil (p : Reader α) : members p false [] = .error .endOfInput := by
  rw [members_eq]
  rfl

/-- The members that are left of an object are awaited up to the brace, if the value of each of them
is. -/
lemma members_cut {p : Reader α} {first : Bool} {as : List (String × α)}
    (hp : ∀ a ∈ as, p.Awaits a.2) (h : members p first (s ++ t) = .ok (as, rest)) :
    Agrees as rest t (members p first s) := by
  generalize hu : s ++ t = u at h
  fun_induction members p first u generalizing s as with
  | case1 => cases h
  | case2 first u rest' hnext =>
    cases h
    subst hu
    rcases (isDecided_nextMember first).cut hnext with hmore | ⟨next, hs, heq⟩
    · exact .inl (by rw [members_eq, hmore])
    · rcases next with rest' | s₁ <;> cases heq
      exact .inr ⟨rest', by rw [members_eq, hs], rfl⟩
  | case3 => cases h
  | case4 => cases h
  | case5 => cases h
  | case6 => cases h
  | case7 first u u₁ hnext key u₂ hkey u₃ hcolon a u₄ hrun as' rest' hmembers ih =>
    cases h
    subst hu
    rw [members_eq]
    rcases memberStart_cut hnext hkey hcolon with
      hmore | ⟨s₁, hs, hmore | ⟨s₂, hs₁, hmore | ⟨s₃, hs₂, rfl⟩⟩⟩
    · exact .inl (by simp only [hmore])
    · exact .inl (by simp only [hs, hmore])
    · exact .inl (by simp only [hs, hs₁, hmore])
    simp only [hs, hs₁, hs₂]
    rcases hp (key, a) List.mem_cons_self s₃ t u₄ hrun with
      (hmore | ⟨s₄, hsame, rfl⟩) | ⟨a', hall⟩
    · exact .inl (by simp only [hmore])
    · rcases ih (fun m hmem => hp m (List.mem_cons_of_mem _ hmem)) rfl hmembers with
        hmore | ⟨rest', hrest, rfl⟩
      · exact .inl (by simp only [hsame, hmore])
      · exact .inr ⟨rest', by simp only [hsame, hrest], rfl⟩
    · exact .inl (by simp only [hall, members_nil])

/-! ## Values -/

namespace Value

/-- A plain value is no floating-point number, and its parts nest one level less deep. -/
lemma Plain.parts {n : Nat} {v : Value} (h : v.Plain n) :
    (∀ x, v ≠ .number (.float x)) ∧
      (∀ vs, v = .array vs → ∃ m, n = m + 1 ∧ ∀ w ∈ vs, Plain m w) ∧
      (∀ ms, v = .object ms → ∃ m, n = m + 1 ∧ ∀ w ∈ ms, Plain m w.2) := by
  rcases h with hscalar | hvs | hms
  · rcases hscalar with _ | _ | _ | _ <;> simp
  · exact ⟨by simp, fun vs hvs' => ⟨_, rfl, by cases hvs'; exact hvs⟩, by simp⟩
  · exact ⟨by simp, by simp, fun ms hms' => ⟨_, rfl, by cases hms'; exact hms⟩⟩

/-- A plain value is awaited if the reader inside awaits the values of one level less. -/
lemma readWith_cut {inner : Option (Reader Value)} {n : Nat} {v : Value} (hv : v.Plain n)
    (hinner : ∀ p ∈ inner, ∀ m, n = m + 1 → ∀ w : Value, w.Plain m → p.Awaits w)
    (h : readWith inner (s ++ t) = .ok (v, rest)) :
    Agrees v rest t (readWith inner s) ∨ ∃ v', readWith inner s = .ok (v', []) := by
  obtain ⟨hfloat, harray, hobject⟩ := hv.parts
  rcases skipBlanks_cut s t with hblank | hskip
  · exact .inl (.inl (by rw [readWith, hblank]))
  rcases hs : skipBlanks s with _ | ⟨b, s'⟩
  · exact .inl (.inl (by rw [readWith, hs]))
  simp only [readWith, hskip, hs, List.cons_append] at h ⊢
  by_cases hbracket : b = Byte.openBracket
  · rcases inner with _ | p
    · rw [if_pos hbracket] at h
      cases h
    rw [if_pos hbracket] at h ⊢
    obtain ⟨⟨vs, rest'⟩, hread, heq⟩ := map_eq_ok h
    cases heq
    obtain ⟨m, hm, hvs⟩ := harray vs rfl
    rcases elements_cut (fun w hw => hinner p rfl m hm w (hvs w hw)) hread with
      hmore | ⟨rest', hsame, rfl⟩
    · exact .inl (.inl (by simp only [hmore]; rfl))
    · exact .inl (.inr ⟨rest', by simp only [hsame]; rfl, rfl⟩)
  by_cases hbrace : b = Byte.openBrace
  · rcases inner with _ | p
    · rw [if_neg hbracket, if_pos hbrace] at h
      cases h
    rw [if_neg hbracket, if_pos hbrace] at h ⊢
    obtain ⟨⟨ms, rest'⟩, hread, heq⟩ := map_eq_ok h
    cases heq
    obtain ⟨m, hm, hms⟩ := hobject ms rfl
    rcases members_cut (fun w hw => hinner p rfl m hm w.2 (hms w hw)) hread with
      hmore | ⟨rest', hsame, rfl⟩
    · exact .inl (.inl (by simp only [hmore]; rfl))
    · exact .inl (.inr ⟨rest', by simp only [hsame]; rfl, rfl⟩)
  · rw [if_neg hbracket, if_neg hbrace] at h ⊢
    exact scalar_cut hfloat h

/-- Plain values are awaited. -/
theorem Plain.awaits {n : Nat} {v : Value} (h : v.Plain n) : (Value.reader n).Awaits v := by
  induction n generalizing v with
  | zero => exact fun s t rest hrun => @readWith_cut s t rest none 0 v h (by simp) hrun
  | succ n ih =>
    refine fun s t rest hrun => @readWith_cut s t rest (some (reader n)) (n + 1) v h ?_ hrun
    intro p hp m hm w hw
    obtain rfl := Option.some.inj hp
    obtain rfl : n = m := by omega
    exact ih hw

end Value

/-! ## Records -/

namespace Field

variable {fields : List (Field σ)} {state state' : σ} {ms : List (String × Value)}

/-- What the field's reader takes from the texts of the value it awaits. -/
def AwaitsTexts (field : Field σ) (v : Value) : Prop :=
  ∀ text update, v.HasText text → field.reader.Reads text update → field.reader.Awaits update

/-- A record is not closed where nothing stands. -/
lemma readMembers_nil (fields : List (Field σ)) (state : σ) :
    readMembers fields state false [] = .error .endOfInput := by
  rw [readMembers_eq]
  rfl

/-- The members that are left of a record are awaited up to the brace, if the value of each of them
is. -/
lemma Takes.readMembers_cut {items : List (List UInt8)} {ws : List UInt8}
    (h : Takes fields state ms state') (ht : List.Forall₂ MemberHasText ms items)
    (hf : ∀ m ∈ ms, ∀ field, fields.find? (·.name == m.1) = some field → field.AwaitsTexts m.2)
    (hw : Blank ws) {first : Bool}
    (hs : ws ++ (sequence first items ++ Byte.closeBrace :: rest) = s ++ t) :
    Agrees state' rest t (readMembers fields state first s) := by
  induction h generalizing items first s ws with
  | nil state =>
    cases ht
    have hnext : nextMember first (s ++ t) = .ok (.closed rest) := by
      rw [← hs]
      exact nextMember_close hw first rest
    rcases (isDecided_nextMember first).cut hnext with hmore | ⟨next, hnext', heq⟩
    · exact .inl (by rw [readMembers_eq, hmore])
    · rcases next with rest' | s₁ <;> cases heq
      exact .inr ⟨rest', by rw [readMembers_eq, hnext'], rfl⟩
  | @cons m ms field state state' update hfind hgiven hread _ ih =>
    obtain _ | @⟨_, _, _, items, hitem, hitems⟩ := ht
    obtain @⟨name, v, before, text, between, value, hbefore, hname, hbetween, hvalue⟩ := hitem
    obtain @⟨_, before', text', after', hbefore', htext, hafter⟩ := hvalue
    have htail := ends_sequence items (ends_closeBrace rest)
    simp only [sequence, List.append_assoc, List.cons_append] at hs
    have hnext := nextMember_open hbefore first (text ++ Byte.quote :: (between ++ Byte.colon ::
      (before' ++ (text' ++ (after' ++ (sequence false items ++ Byte.closeBrace :: rest))))))
    rw [← nextMember_append hw, hs] at hnext
    have hrun := (hread text' htext).run_append before' _ hbefore' (htail.blank_append hafter)
    rw [readMembers_eq]
    rcases memberStart_cut hnext (hname.stringBody_append _) (colon_append hbetween _) with
      hmore | ⟨s₁, hs₁, hmore | ⟨s₂, hs₂, hmore | ⟨s₃, hs₃, heq⟩⟩⟩
    · exact .inl (by simp only [hmore])
    · exact .inl (by simp only [hs₁, hmore])
    · exact .inl (by simp only [hs₁, hs₂, hfind, hgiven, Bool.false_eq_true, if_false, hmore])
    simp only [hs₁, hs₂, hs₃, hfind, hgiven, Bool.false_eq_true, if_false]
    rw [heq] at hrun
    have hawaits : field.reader.Awaits update :=
      hf (name, v) List.mem_cons_self field hfind text' update htext (hread text' htext)
    rcases hawaits s₃ t _ hrun with (hmore | ⟨s₄, hsame, hrest⟩) | ⟨update', hall⟩
    · exact .inl (by simp only [hmore])
    · simp only [hsame]
      exact ih hitems (fun m' hmem => hf m' (List.mem_cons_of_mem _ hmem)) hafter hrest
    · exact .inl (by simp only [hall, readMembers_nil])

end Field

/-- A record is awaited up to its brace, whatever stands behind it, if the value of each member
is. -/
theorem RecordShape.run_cut {shape : RecordShape σ α} {ms : List (String × Value)} {state : σ}
    {a : α} {text : List UInt8} (h : Field.Takes shape.fields shape.start ms state)
    (hfinish : shape.finish state = .ok a) (ht : (Value.object ms).HasText text)
    (hf : ∀ m ∈ ms, ∀ field, shape.fields.find? (·.name == m.1) = some field →
      field.AwaitsTexts m.2)
    (hs : text ++ rest = s ++ t) : Agrees a rest t (shape.reader.run s) := by
  rcases ht with _ | _ | _ | _ | _ | _ | @⟨_, ws, items, hws, hitems⟩
  rcases s with _ | ⟨b, s⟩
  · exact .inl rfl
  simp only [List.cons_append, List.append_assoc, separated_eq_sequence, List.cons.injEq] at hs
  obtain ⟨rfl, hs⟩ := hs
  have hskip : skipBlanks (Byte.openBrace :: s) = Byte.openBrace :: s :=
    skipBlanks_cons (by decide) s
  simp only [reader, Reader.byFirst, hskip, readFrom, if_true, readObject]
  rcases h.readMembers_cut hitems hf hws hs with hmore | ⟨rest', hsame, rfl⟩
  · exact .inl (by simp only [hmore])
  · exact .inr ⟨rest', by simp only [hsame, hfinish], rfl⟩

end ContractHost.Json
