import Mathlib.Tactic.Common
import Mathlib.Data.List.Basic
import ContractHost.Text.Utf8

/-!
# What a lossy reading keeps

Any bytes can be read as text, part by part: a well-formed character is kept, and where no
character stands, the longest beginning of a character that is there, or else one byte, gives one
`U+FFFD`.  `Utf8.ReadsAs` says this of bytes and text without a word about how the parts are found.
It determines the text, and the text is that of `Utf8.lossy` (`Utf8.toList_lossy_eq_iff`).

So well-formed bytes are read as the text that they encode, a well-formed character is kept
wherever it stands (`Utf8.lossy_append`), and a text has at most three times as many bytes as what
it was read from (`Utf8.utf8ByteSize_lossy_le`).
-/

namespace ContractHost.Utf8

open String (utf8EncodeChar)

variable {c d : Char} {a b t : UInt8} {bytes front back part rest longer : List UInt8}
  {text text' : List Char}

/-! ## Bytes and their parts -/

/-- The bytes are the beginning of the encoding of some character. -/
def Opens (part : List UInt8) : Prop := ∃ c : Char, part <+: utf8EncodeChar c

/-- No character stands at the beginning of the bytes. -/
def NoCharacter (bytes : List UInt8) : Prop := ∀ c : Char, ¬utf8EncodeChar c <+: bytes

/-- No character stands at the beginning of `part ++ rest`, and `part` is the longest beginning of
a character that does, or one byte if there is none. -/
structure IllFormed (part rest : List UInt8) : Prop where
  /-- No character stands there. -/
  noCharacter : NoCharacter (part ++ rest)
  /-- The part is one byte, or several that begin a character. -/
  opens : part.length = 1 ∨ part ≠ [] ∧ Opens part
  /-- What begins a character is no longer than the part. -/
  longest : ∀ longer, longer <+: part ++ rest → Opens longer → longer.length ≤ part.length

/-- The bytes are read as the text: characters are kept, and each ill-formed part is replaced. -/
inductive ReadsAs : List UInt8 → List Char → Prop
  | nil : ReadsAs [] []
  | character (c : Char) {rest : List UInt8} {text : List Char} (hrest : ReadsAs rest text) :
    ReadsAs (utf8EncodeChar c ++ rest) (c :: text)
  | illFormed {part rest : List UInt8} {text : List Char} (hpart : IllFormed part rest)
    (hrest : ReadsAs rest text) : ReadsAs (part ++ rest) (replacement :: text)

/-! ## Which bytes begin a character -/

/-- The encoding of a character of three bytes. -/
lemma utf8EncodeChar_of_three (hlow : 0x7ff < c.toNat) (hhigh : c.toNat ≤ 0xffff) :
    utf8EncodeChar c = [.ofNat (c.toNat / 4096 % 16 + 0xe0), .ofNat (c.toNat / 64 % 64 + 0x80),
      .ofNat (c.toNat % 64 + 0x80)] := by
  change (if c.toNat ≤ 0x7f then _ else if c.toNat ≤ 0x7ff then _ else
    if c.toNat ≤ 0xffff then _ else _) = _
  rw [if_neg (by omega), if_neg (by omega), if_pos hhigh]
  rfl

/-- The encoding of a character of four bytes. -/
lemma utf8EncodeChar_of_four (hlow : 0xffff < c.toNat) :
    utf8EncodeChar c = [.ofNat (c.toNat / 262144 % 8 + 0xf0), .ofNat (c.toNat / 4096 % 64 + 0x80),
      .ofNat (c.toNat / 64 % 64 + 0x80), .ofNat (c.toNat % 64 + 0x80)] := by
  change (if c.toNat ≤ 0x7f then _ else if c.toNat ≤ 0x7ff then _ else
    if c.toNat ≤ 0xffff then _ else _) = _
  rw [if_neg (by omega), if_neg (by omega), if_neg (by omega)]
  rfl

/-- Every number but those of surrogates and those beyond the last is that of a character. -/
lemma exists_toNat_eq {n : Nat} (h : n < 0xd800 ∨ 0xdfff < n ∧ n < 0x110000) :
    ∃ c : Char, c.toNat = n := by
  refine ⟨Char.ofNat n, ?_⟩
  rw [Char.ofNat, dif_pos h]
  rfl

/-- The first two bytes of a long character, in numbers. -/
lemma startsLong_iff : startsLong a b = true ↔ 0x80 ≤ b.toNat ∧ b.toNat ≤ 0xBF ∧
    (0xE0 ≤ a.toNat ∧ a.toNat ≤ 0xEF ∧ (a.toNat = 0xE0 → 0xA0 ≤ b.toNat) ∧
        (a.toNat = 0xED → b.toNat ≤ 0x9F) ∨
      0xF0 ≤ a.toNat ∧ a.toNat ≤ 0xF4 ∧ (a.toNat = 0xF0 → 0x90 ≤ b.toNat) ∧
        (a.toNat = 0xF4 → b.toNat ≤ 0x8F)) := by
  unfold startsLong isContinuation
  simp only [← UInt8.toNat_inj, UInt8.le_iff_toNat_le, UInt8.reduceToNat]
  grind

/-- A byte that continues a character, in numbers. -/
lemma isContinuation_iff : isContinuation t = true ↔ 0x80 ≤ t.toNat ∧ t.toNat ≤ 0xBF := by
  unfold isContinuation
  simp only [UInt8.le_iff_toNat_le, UInt8.reduceToNat, Bool.and_eq_true, decide_eq_true_eq]

/-- A character of three bytes begins with two bytes that start a long one. -/
lemma startsLong_of_three (hsize : c.utf8Size = 3) (h : [a, b] <+: utf8EncodeChar c) :
    startsLong a b = true := by
  have hvalid : c.toNat < 0xd800 ∨ 0xdfff < c.toNat ∧ c.toNat < 0x110000 := c.valid
  obtain ⟨hlow, hhigh⟩ := Char.utf8Size_eq_three_iff.1 hsize
  replace hlow : 0x7ff < c.toNat := UInt32.lt_iff_toNat_lt.1 hlow
  replace hhigh : c.toNat ≤ 0xffff := UInt32.le_iff_toNat_le.1 hhigh
  rw [utf8EncodeChar_of_three hlow hhigh] at h
  simp only [List.cons_prefix_cons] at h
  obtain ⟨rfl, rfl, -⟩ := h
  simp only [startsLong_iff, UInt8.toNat_ofNat']
  omega

/-- A character of four bytes begins with two bytes that start a long one. -/
lemma startsLong_of_four (hsize : c.utf8Size = 4) (h : [a, b] <+: utf8EncodeChar c) :
    startsLong a b = true := by
  have hvalid : c.toNat < 0xd800 ∨ 0xdfff < c.toNat ∧ c.toNat < 0x110000 := c.valid
  have hlow : 0xffff < c.toNat := UInt32.lt_iff_toNat_lt.1 (Char.utf8Size_eq_four_iff.1 hsize)
  rw [utf8EncodeChar_of_four hlow] at h
  simp only [List.cons_prefix_cons] at h
  obtain ⟨rfl, rfl, -⟩ := h
  simp only [startsLong_iff, UInt8.toNat_ofNat']
  omega

/-- In a character of four bytes the first is one of the greatest, and the third continues it. -/
lemma third_of_four (hsize : c.utf8Size = 4) (h : [a, b, t] <+: utf8EncodeChar c) :
    0xF0 ≤ a ∧ isContinuation t = true := by
  have hvalid : c.toNat < 0xd800 ∨ 0xdfff < c.toNat ∧ c.toNat < 0x110000 := c.valid
  have hlow : 0xffff < c.toNat := UInt32.lt_iff_toNat_lt.1 (Char.utf8Size_eq_four_iff.1 hsize)
  rw [utf8EncodeChar_of_four hlow] at h
  simp only [List.cons_prefix_cons] at h
  obtain ⟨rfl, -, rfl, -⟩ := h
  simp only [isContinuation_iff, UInt8.le_iff_toNat_le, UInt8.toNat_ofNat', UInt8.reduceToNat]
  omega

/-- Two bytes that start a long character, and one that continues it if the first is one of the
greatest, begin a character of four bytes. -/
lemma opens_of_third (h : startsLong a b = true) (ha : 0xF0 ≤ a) (ht : isContinuation t = true) :
    Opens [a, b, t] := by
  replace ha : 0xF0 ≤ a.toNat := UInt8.le_iff_toNat_le.1 ha
  rw [startsLong_iff] at h
  rw [isContinuation_iff] at ht
  obtain ⟨c, hc⟩ := exists_toNat_eq
    (n := (a.toNat - 0xF0) * 262144 + (b.toNat - 0x80) * 4096 + (t.toNat - 0x80) * 64) (by omega)
  refine ⟨c, ?_⟩
  rw [utf8EncodeChar_of_four (by omega)]
  simp only [List.cons_prefix_cons, List.nil_prefix, and_true, ← UInt8.toNat_inj,
    UInt8.toNat_ofNat']
  omega

/-- Two bytes that start a long character begin one. -/
lemma opens_of_startsLong (h : startsLong a b = true) : Opens [a, b] := by
  by_cases ha : 0xF0 ≤ a
  · obtain ⟨c, hc⟩ := opens_of_third (t := 0x80) h ha rfl
    exact ⟨c, List.IsPrefix.trans ⟨[0x80], rfl⟩ hc⟩
  · replace ha : ¬0xF0 ≤ a.toNat := fun hle => ha (UInt8.le_iff_toNat_le.2 hle)
    rw [startsLong_iff] at h
    obtain ⟨c, hc⟩ := exists_toNat_eq (n := (a.toNat - 0xE0) * 4096 + (b.toNat - 0x80) * 64)
      (by omega)
    refine ⟨c, ?_⟩
    rw [utf8EncodeChar_of_three (by omega) (by omega)]
    simp only [List.cons_prefix_cons, List.nil_prefix, and_true, ← UInt8.toNat_inj,
      UInt8.toNat_ofNat']
    omega

/-! ## Ill-formed parts -/

/-- With a beginning of a character all its beginnings are such. -/
lemma Opens.of_isPrefix (h : Opens longer) (hpart : part <+: longer) : Opens part := by
  obtain ⟨c, hc⟩ := h
  exact ⟨c, hpart.trans hc⟩

/-- Where no character stands, a beginning of one is shorter than the whole. -/
lemma NoCharacter.length_lt (h : NoCharacter bytes) (hpart : part <+: bytes)
    (hc : part <+: utf8EncodeChar c) : part.length < c.utf8Size := by
  by_contra hle
  have hlength : (utf8EncodeChar c).length ≤ part.length := by
    rw [String.length_utf8EncodeChar]
    omega
  have heq : part = utf8EncodeChar c := hc.eq_of_length_le hlength
  exact h c (heq ▸ hpart)

/-- Where no character stands, two bytes that begin one start a long one. -/
lemma NoCharacter.startsLong (h : NoCharacter (a :: b :: rest)) (hopens : Opens [a, b]) :
    startsLong a b = true := by
  obtain ⟨c, hc⟩ := hopens
  have hsize : 2 < c.utf8Size := h.length_lt ⟨rest, rfl⟩ hc
  have hfour := c.utf8Size_le_four
  by_cases hthree : c.utf8Size = 3
  · exact startsLong_of_three hthree hc
  · exact startsLong_of_four (by omega) hc

/-- Where no character stands, of three bytes that begin one the first is one of the greatest, and
the third continues it. -/
lemma NoCharacter.third (h : NoCharacter (a :: b :: t :: rest)) (hopens : Opens [a, b, t]) :
    0xF0 ≤ a ∧ isContinuation t = true := by
  obtain ⟨c, hc⟩ := hopens
  have hsize : 3 < c.utf8Size := h.length_lt ⟨rest, rfl⟩ hc
  have hfour := c.utf8Size_le_four
  exact third_of_four (by omega) hc

/-- Where no character stands, what begins one has at most three bytes. -/
lemma NoCharacter.length_le (h : NoCharacter bytes) (hlonger : longer <+: bytes)
    (hopens : Opens longer) : longer.length ≤ 3 := by
  obtain ⟨c, hc⟩ := hopens
  have hlt := h.length_lt hlonger hc
  have hfour := c.utf8Size_le_four
  omega

/-- Where a longer part begins a character, a shorter one does. -/
lemma opens_of_length_le (hpart : part <+: bytes) (hlonger : longer <+: bytes)
    (hopens : Opens longer) (hle : part.length ≤ longer.length) : Opens part :=
  hopens.of_isPrefix (List.prefix_of_prefix_length_le hpart hlonger hle)

/-- One byte is an ill-formed part if it does not start a long character with the next. -/
lemma illFormed_one (h : NoCharacter (a :: rest))
    (hnot : ∀ b ∈ rest.head?, startsLong a b = false) : IllFormed [a] rest := by
  refine ⟨h, Or.inl rfl, fun longer hlonger hopens => ?_⟩
  by_contra hlt
  replace hlt : 2 ≤ longer.length := Nat.not_le.1 hlt
  have hlength := hlonger.length_le
  obtain _ | ⟨b, rest⟩ := rest
  · exact absurd (Nat.le_trans hlt hlength) (Nat.not_succ_le_self _)
  · have hpair : [a, b] <+: a :: b :: rest := ⟨rest, rfl⟩
    have hstarts := h.startsLong (opens_of_length_le hpair hlonger hopens hlt)
    exact absurd hstarts (Bool.eq_false_iff.1 (hnot b rfl))

/-- Two bytes that start a long character are an ill-formed part if the next does not continue
it. -/
lemma illFormed_two (h : NoCharacter (a :: b :: rest)) (hstarts : startsLong a b = true)
    (hnot : ∀ t ∈ rest.head?, ¬(0xF0 ≤ a ∧ isContinuation t = true)) :
    IllFormed [a, b] rest := by
  refine ⟨h, Or.inr ⟨List.cons_ne_nil _ _, opens_of_startsLong hstarts⟩,
    fun longer hlonger hopens => ?_⟩
  by_contra hlt
  replace hlt : 3 ≤ longer.length := Nat.not_le.1 hlt
  have hlength := hlonger.length_le
  obtain _ | ⟨t, rest⟩ := rest
  · exact absurd (Nat.le_trans hlt hlength) (Nat.not_succ_le_self _)
  · have htriple : [a, b, t] <+: a :: b :: t :: rest := ⟨rest, rfl⟩
    exact hnot t rfl (h.third (opens_of_length_le htriple hlonger hopens hlt))

/-- Three bytes that begin a character of four are an ill-formed part if it does not end there. -/
lemma illFormed_three (h : NoCharacter (a :: b :: t :: rest)) (hopens : Opens [a, b, t]) :
    IllFormed [a, b, t] rest :=
  ⟨h, Or.inr ⟨List.cons_ne_nil _ _, hopens⟩, fun _ hlonger hopens' =>
    h.length_le hlonger hopens'⟩

/-- Where no character stands there is an ill-formed part, and `illFormedLength` is its length. -/
lemma exists_illFormed (h : NoCharacter (a :: rest)) :
    ∃ part behind, a :: rest = part ++ behind ∧ IllFormed part behind ∧
      part.length = illFormedLength a rest[0]? rest[1]? := by
  obtain _ | ⟨b, rest⟩ := rest
  · exact ⟨[a], [], rfl, illFormed_one h (by simp), rfl⟩
  by_cases hstarts : startsLong a b = true
  · obtain _ | ⟨t, rest⟩ := rest
    · exact ⟨[a, b], [], rfl, illFormed_two h hstarts (by simp), by simp [illFormedLength, hstarts]⟩
    by_cases hlong : 0xF0 ≤ a ∧ isContinuation t = true
    · exact ⟨[a, b, t], rest, rfl, illFormed_three h (opens_of_third hstarts hlong.1 hlong.2),
        by simp [illFormedLength, hstarts, hlong]⟩
    · exact ⟨[a, b], t :: rest, rfl, illFormed_two h hstarts (by simpa using hlong),
        by simp [illFormedLength, hstarts, hlong]⟩
  · exact ⟨[a], b :: rest, rfl, illFormed_one h (by simpa using hstarts),
      by simp [illFormedLength, hstarts]⟩

/-! ## Reading bytes as text -/

/-- The bytes from a position on. -/
lemma toList_extract_size (b : ByteArray) (i : Nat) :
    (b.extract i b.size).data.toList = b.data.toList.drop i := by
  rw [ByteArray.data_extract, Array.toList_extract, List.extract_eq_take_drop]
  refine List.take_of_length_le ?_
  rw [List.length_drop, Array.length_toList]
  exact Nat.le_refl _

/-- A character is found at a position just if its encoding stands there. -/
lemma utf8DecodeChar?_eq_some_iff {b : ByteArray} {i : Nat} :
    b.utf8DecodeChar? i = some c ↔ utf8EncodeChar c <+: b.data.toList.drop i := by
  rw [ByteArray.utf8DecodeChar?_eq_utf8DecodeChar?_extract, ← toList_extract_size]
  generalize b.extract i b.size = b
  constructor
  · intro h
    obtain ⟨rest, rfl⟩ := ByteArray.exists_of_utf8DecodeChar?_eq_some h
    refine ⟨rest.data.toList, ?_⟩
    rw [ByteArray.data_append, Array.toList_append, List.data_toByteArray]
  · rintro ⟨rest, hrest⟩
    have hb : b = (utf8EncodeChar c).toByteArray ++ rest.toByteArray := by
      apply ByteArray.ext
      apply Array.ext'
      rw [ByteArray.data_append, Array.toList_append, List.data_toByteArray,
        List.data_toByteArray, ← hrest]
    rw [hb]
    exact ByteArray.utf8DecodeChar?_utf8EncodeChar_append

/-- At most one character stands at the beginning of bytes. -/
lemma eq_of_isPrefix (hc : utf8EncodeChar c <+: bytes) (hd : utf8EncodeChar d <+: bytes) :
    c = d := by
  have hbytes : bytes.toByteArray.data.toList.drop 0 = bytes := by
    rw [List.data_toByteArray, List.drop_zero]
  rw [← hbytes, ← utf8DecodeChar?_eq_some_iff] at hc hd
  exact Option.some.inj (hc.symm.trans hd)

/-- From each position on the bytes are read as the characters that are found there. -/
lemma readsAs_lossyFrom (b : ByteArray) (i : Nat) :
    ReadsAs (b.data.toList.drop i) (lossyFrom b i) := by
  fun_induction lossyFrom b i with
  | case1 i hi c hc ih =>
    obtain ⟨rest, hrest⟩ := utf8DecodeChar?_eq_some_iff.1 hc
    have hbehind : b.data.toList.drop (i + c.utf8Size) = rest := by
      rw [← List.drop_drop, ← hrest, ← String.length_utf8EncodeChar, List.drop_left]
    rw [hbehind] at ih
    rw [← hrest]
    exact .character c ih
  | case2 i hi hnone ih =>
    have hlist : b.data.toList.drop i = b[i] :: b.data.toList.drop (i + 1) :=
      List.drop_eq_getElem_cons hi
    have hno : NoCharacter (b.data.toList.drop i) := by
      intro c hc
      rw [utf8DecodeChar?_eq_some_iff.2 hc] at hnone
      cases hnone
    have hsecond : (b.data.toList.drop (i + 1))[0]? = b[i + 1]? := by
      rw [List.getElem?_drop, Array.getElem?_toList]
      rfl
    have hthird : (b.data.toList.drop (i + 1))[1]? = b[i + 2]? := by
      rw [List.getElem?_drop, Array.getElem?_toList]
      rfl
    rw [hlist] at hno
    obtain ⟨part, behind, hparts, hill, hlength⟩ := exists_illFormed hno
    rw [hsecond, hthird] at hlength
    have hbehind :
        b.data.toList.drop (i + illFormedLength b[i] b[i + 1]? b[i + 2]?) = behind := by
      rw [← List.drop_drop, hlist, hparts, ← hlength, List.drop_left]
    rw [hbehind] at ih
    rw [hlist, hparts]
    exact .illFormed hill ih
  | case3 i hi =>
    rw [List.drop_eq_nil_of_le (Nat.not_lt.1 hi)]
    exact .nil

/-! ## The text of the bytes -/

/-- An ill-formed part has a byte. -/
lemma IllFormed.ne_nil (h : IllFormed part rest) : part ≠ [] := by
  rcases h.opens with hone | ⟨hne, _⟩
  · exact List.ne_nil_of_length_eq_add_one hone
  · exact hne

/-- Of two ill-formed parts at one place none is longer. -/
lemma IllFormed.length_le {part' rest' : List UInt8} (h : IllFormed part rest)
    (h' : IllFormed part' rest') (heq : part ++ rest = part' ++ rest') :
    part.length ≤ part'.length := by
  rcases h.opens with hone | ⟨_, hopens⟩
  · rw [hone]
    exact List.length_pos_iff.2 h'.ne_nil
  · exact h'.longest part ⟨rest, heq⟩ hopens

/-- Bytes are read as one text only. -/
theorem ReadsAs.unique (h : ReadsAs bytes text) (h' : ReadsAs bytes text') : text = text' := by
  induction h generalizing text' with
  | nil =>
    generalize hbytes : ([] : List UInt8) = bytes at h'
    cases h' with
    | nil => rfl
    | character c _ => exact absurd hbytes.symm (by simp)
    | illFormed hpart _ => exact absurd hbytes.symm (by simp [hpart.ne_nil])
  | @character c rest text _ ih =>
    generalize hbytes : utf8EncodeChar c ++ rest = bytes at h'
    cases h' with
    | nil => exact absurd hbytes (by simp)
    | @character d rest' _ hrest' =>
      obtain rfl : c = d := eq_of_isPrefix ⟨rest, hbytes⟩ ⟨rest', rfl⟩
      obtain rfl := List.append_cancel_left hbytes
      rw [ih hrest']
    | illFormed hpart _ => exact absurd ⟨rest, hbytes⟩ (hpart.noCharacter c)
  | @illFormed part rest text hpart _ ih =>
    generalize hbytes : part ++ rest = bytes at h'
    cases h' with
    | nil => exact absurd hbytes (by simp [hpart.ne_nil])
    | @character d rest' _ _ => exact absurd ⟨rest', hbytes.symm⟩ (hpart.noCharacter d)
    | @illFormed part' rest' _ hpart' hrest' =>
      have hlength : part.length = part'.length :=
        Nat.le_antisymm (hpart.length_le hpart' hbytes) (hpart'.length_le hpart hbytes.symm)
      obtain ⟨rfl, rfl⟩ := List.append_inj hbytes hlength
      rw [ih hrest']

/-- The lossy text of bytes is what they are read as, and nothing else is. -/
theorem toList_lossy_eq_iff {b : ByteArray} :
    (lossy b).toList = text ↔ ReadsAs b.data.toList text := by
  have hlossy : ReadsAs b.data.toList (lossy b).toList := by
    rw [lossy, String.toList_ofList]
    exact readsAs_lossyFrom b 0
  constructor
  · rintro rfl
    exact hlossy
  · exact hlossy.unique

/-! ## What is kept -/

/-- What begins a character and does not end before a byte that no character goes on with ends
there. -/
lemma isPrefix_of_isUTF8FirstByte (hfront : front ≠ [])
    (hback : ∀ b ∈ back.head?, b.IsUTF8FirstByte) (hpart : part <+: front ++ back)
    (hopens : Opens part) : part <+: front := by
  obtain ⟨c, hc⟩ := hopens
  refine List.prefix_of_prefix_length_le hpart (List.prefix_append front back) ?_
  by_contra hlt
  replace hlt : front.length < part.length := Nat.not_le.1 hlt
  have hinside : front.length < (utf8EncodeChar c).length := Nat.lt_of_lt_of_le hlt hc.length_le
  have hhead : back.head? = some (utf8EncodeChar c)[front.length] := by
    have hboth : (front ++ back)[front.length]? = back.head? := by
      rw [List.getElem?_append_right (Nat.le_refl _), Nat.sub_self, List.head?_eq_getElem?]
    rw [← hboth, ← hc.getElem hlt, hpart.getElem hlt, List.getElem?_eq_getElem]
  have hfirst := hback _ hhead
  rw [UInt8.isUTF8FirstByte_getElem_utf8EncodeChar, List.length_eq_zero_iff] at hfirst
  exact hfront hfirst

/-- Where no byte goes on with a character, bytes are read one after the other. -/
lemma ReadsAs.append (h : ReadsAs front text) (h' : ReadsAs back text')
    (hback : ∀ b ∈ back.head?, b.IsUTF8FirstByte) : ReadsAs (front ++ back) (text ++ text') := by
  induction h with
  | nil => exact h'
  | character c _ ih =>
    rw [List.append_assoc]
    exact .character c ih
  | @illFormed part rest _ hpart _ ih =>
    have hne : part ++ rest ≠ [] := by simp [hpart.ne_nil]
    rw [List.append_assoc]
    refine .illFormed ⟨fun c hc => ?_, hpart.opens, fun longer hlonger hopens => ?_⟩ ih
    · rw [← List.append_assoc] at hc
      exact hpart.noCharacter c
        (isPrefix_of_isUTF8FirstByte hne hback hc ⟨c, List.prefix_refl _⟩)
    · rw [← List.append_assoc] at hlonger
      exact hpart.longest longer (isPrefix_of_isUTF8FirstByte hne hback hlonger hopens) hopens

/-- The first byte of a character goes on with no other. -/
lemma isUTF8FirstByte_of_mem_head? (c : Char) (back : List UInt8) :
    ∀ b ∈ (utf8EncodeChar c ++ back).head?, b.IsUTF8FirstByte := by
  intro b hb
  have hpos : 0 < (utf8EncodeChar c).length := List.length_pos_iff.2 String.utf8EncodeChar_ne_nil
  rw [Option.mem_def, List.head?_eq_getElem?, List.getElem?_append_left hpos,
    List.getElem?_eq_getElem hpos, Option.some.injEq] at hb
  rw [← hb, UInt8.isUTF8FirstByte_getElem_utf8EncodeChar]

/-- The encoding of a text is read as the text. -/
lemma readsAs_flatMap (text : List Char) : ReadsAs (text.flatMap utf8EncodeChar) text := by
  induction text with
  | nil => exact .nil
  | cons c text ih =>
    rw [List.flatMap_cons]
    exact .character c ih

/-- A text has at most three bytes for each byte that it was read from. -/
lemma ReadsAs.length_flatMap_le (h : ReadsAs bytes text) :
    (text.flatMap utf8EncodeChar).length ≤ 3 * bytes.length := by
  induction h with
  | nil => exact Nat.zero_le _
  | character c _ ih =>
    rw [List.flatMap_cons, List.length_append, List.length_append]
    omega
  | illFormed hpart _ ih =>
    have hsize : (utf8EncodeChar replacement).length = 3 := rfl
    have hpos := List.length_pos_iff.2 hpart.ne_nil
    rw [List.flatMap_cons, List.length_append, List.length_append, hsize]
    omega

/-- The bytes of a text are the encodings of its characters. -/
lemma toList_toUTF8 (s : String) :
    s.toUTF8.data.toList = s.toList.flatMap utf8EncodeChar := by
  rw [String.toUTF8_eq_toByteArray, ← String.utf8Encode_toList, List.utf8Encode,
    List.data_toByteArray]

/-- Well-formed bytes are read as the text that they encode. -/
theorem lossy_toUTF8 (s : String) : lossy s.toUTF8 = s := by
  rw [← String.toList_inj, toList_lossy_eq_iff, toList_toUTF8]
  exact readsAs_flatMap s.toList

/-- A well-formed character is kept wherever it stands, and what stands before and behind it is
read as it would be alone. -/
theorem lossy_append (before after : ByteArray) (c : Char) :
    lossy (before ++ (String.singleton c).toUTF8 ++ after) =
      lossy before ++ String.singleton c ++ lossy after := by
  have hbefore := toList_lossy_eq_iff.1 (Eq.refl (lossy before).toList)
  have hafter := toList_lossy_eq_iff.1 (Eq.refl (lossy after).toList)
  have hkept := hbefore.append (.character c hafter) (isUTF8FirstByte_of_mem_head? c _)
  rw [← String.toList_inj, toList_lossy_eq_iff, ByteArray.data_append, ByteArray.data_append,
    Array.toList_append, Array.toList_append, toList_toUTF8, String.toList_append,
    String.toList_append, String.toList_singleton, List.flatMap_singleton, List.append_assoc,
    List.append_assoc, List.singleton_append]
  exact hkept

/-- A text has at most three times as many bytes as what it was read from. -/
theorem utf8ByteSize_lossy_le (b : ByteArray) : (lossy b).utf8ByteSize ≤ 3 * b.size := by
  have hle := (toList_lossy_eq_iff.1 (Eq.refl (lossy b).toList)).length_flatMap_le
  rw [← toList_toUTF8] at hle
  exact hle

end ContractHost.Utf8
