import Mathlib.Tactic.Common
import ContractHost.Config
import ContractHost.Proofs.Json.Members

/-!
# Settings that a file gives

A configuration file may give any of the settings, and of the limits of a log any of the two: in any
order, with blanks between all parts, and with any spelling of the names and texts
(`Config.Given.IsGivenBy`).  What has been read is at any time the part of the settings whose names
have come up so far, whatever their order (`LogLimits.Draft.Gives.exists_field`,
`Config.Given.Gives.exists_field`), so at the end it is all of them.  The settings of a file are
thus those that it gives, and the standard ones where it gives none
(`Config.Given.IsGivenBy.ofText_eq`); they can be used if the memory that they allow can be
addressed (`Config.ofFile_of_isGivenBy`).
-/

namespace ContractHost

/-! ## Numbers -/

namespace Json

/-- A word is read from its digits, if the range allows all words. -/
lemma reads_word {r : IntegerRange} {n : UInt64} {text : List UInt8} (hlow : r.least ≤ 0)
    (hhigh : (UInt64.size : Int) ≤ r.greatest + 1)
    (h : (Value.number (.integer n.toNat)).HasText text) : (Reader.word r).Reads text n := by
  cases h
  have hlt : (n.toNat : Int) < UInt64.size := by exact_mod_cast n.toNat_lt_size
  have hread := reads_intBytes (r := r) (isExact_uint64 n) (by omega) (by omega)
  have hmap := hread.map fun z => UInt64.ofNat z.toNat
  rwa [Int.toNat_natCast, UInt64.ofNat_toNat] at hmap

/-- The names of the fields that are there. -/
def namesGiven (fields : List (String × Bool)) : List String :=
  (fields.filter Prod.snd).map Prod.fst

/-- The names that are given are some of the names of all fields. -/
lemma nodup_namesGiven {fields : List (String × Bool)} (h : (fields.map Prod.fst).Nodup) :
    (namesGiven fields).Nodup :=
  h.sublist (List.filter_sublist.map Prod.fst)

/-- Members of different names are taken one after the other, if each of them, behind any names that
came up before, gives a field that is not given yet and leads on to the state for one name more. -/
lemma Field.takes_names {σ : Type} {fields : List (Field σ)} {Gives : String × Value → Prop}
    {ms : List (String × Value)} (part : List String → σ)
    (hstep : ∀ m names, Gives m → m.1 ∉ names →
      ∃ field update, fields.find? (·.name == m.1) = some field ∧
        field.given (part names) = false ∧
        (∀ text, m.2.HasText text → field.reader.Reads text update) ∧
        update (part names) = part (names ++ [m.1]))
    (hms : ∀ m ∈ ms, Gives m) (h : (ms.map Prod.fst).Nodup) :
    Takes fields (part []) ms (part (ms.map Prod.fst)) := by
  refine takes_append (fun done => part (done.map Prod.fst)) (fun done m hm hnew => ?_) [] hms h
  rw [List.map_append]
  exact hstep m (done.map Prod.fst) hm hnew

end Json

/-- A number of pages is read from its digits. -/
lemma Config.reads_pages {n : UInt32} {text : List UInt8}
    (h : (Json.Value.number (.integer n.toNat)).HasText text) : pagesReader.Reads text n := by
  cases h
  have hlt := n.toNat_lt_size
  simp only [UInt32.size] at hlt
  have hexact : Json.IsExact n.toNat := by
    constructor <;> simp only [Json.leastMagnitude, UInt64.size] <;> omega
  have hread := Json.reads_intBytes (r := .u32) hexact (by simp only [Json.IntegerRange.u32]; omega)
    (by simp only [Json.IntegerRange.u32]; omega)
  have hmap := hread.map fun z => UInt32.ofNat z.toNat
  rwa [Int.toNat_natCast, UInt32.ofNat_toNat] at hmap

/-! ## The limits of a log -/

namespace LogLimits.Draft

/-- A member that gives one of the limits. -/
inductive Gives (d : Draft) : String × Json.Value → Prop
  | maxRecords {n : UInt64} : d.maxRecords = some n →
      Gives d ("max_records", .number (.integer n.toNat))
  | maxBytes {n : UInt64} : d.maxBytes = some n →
      Gives d ("max_bytes", .number (.integer n.toNat))

/-- The names of the limits that are given. -/
def names (d : Draft) : List String :=
  Json.namesGiven [("max_records", d.maxRecords.isSome), ("max_bytes", d.maxBytes.isSome)]

/-- An object that gives limits: one member for each of them that is given, in any order. -/
inductive IsGivenBy (d : Draft) : Json.Value → Prop
  | mk {ms : List (String × Json.Value)} : (ms.map Prod.fst).Perm d.names →
      (∀ m ∈ ms, d.Gives m) → IsGivenBy d (.object ms)

/-- The limits of some names. -/
def part (d : Draft) (names : List String) : Draft where
  maxRecords := if "max_records" ∈ names then d.maxRecords else none
  maxBytes := if "max_bytes" ∈ names then d.maxBytes else none

variable {d : Draft}

/-- The limits of all names that are given are all limits. -/
lemma part_eq_self {names : List String} (h : names.Perm d.names) : d.part names = d := by
  obtain ⟨records, bytes⟩ := d
  rcases records with _ | records <;> rcases bytes with _ | bytes <;>
    simp [part, h.mem_iff, LogLimits.Draft.names, Json.namesGiven]

/-- A member of a new name is read into the limit of that name. -/
lemma Gives.exists_field {m : String × Json.Value} (hm : d.Gives m) {names : List String}
    (hnew : m.1 ∉ names) :
    ∃ field update, shape.fields.find? (·.name == m.1) = some field ∧
      field.given (d.part names) = false ∧
      (∀ text, m.2.HasText text → field.reader.Reads text update) ∧
      update (d.part names) = d.part (names ++ [m.1]) := by
  rcases hm with @⟨n, hn⟩ | @⟨n, hn⟩
  · exact Json.Field.exists_ofReader (a := n) rfl (by simp [part, hnew])
      (fun _ => Json.reads_word (by decide) (by decide)) (by simp [part, hn])
  · exact Json.Field.exists_ofReader (a := n) rfl (by simp [part, hnew])
      (fun _ => Json.reads_word (by decide) (by decide)) (by simp [part, hn])

/-- Limits are read from every text of an object that gives them, and filled up. -/
lemma IsGivenBy.reads {v : Json.Value} {text : List UInt8} (h : d.IsGivenBy v)
    (ht : v.HasText text) : shape.reader.Reads text (ofDraft d) := by
  obtain @⟨ms, hnames, hms⟩ := h
  have hnodup : (ms.map Prod.fst).Nodup :=
    hnames.nodup_iff.2 (Json.nodup_namesGiven (by simp))
  have htakes := Json.Field.takes_names d.part (fun _ _ hm hnew => hm.exists_field hnew) hms hnodup
  rw [part_eq_self hnames] at htakes
  exact Json.RecordShape.reads_of_takes htakes rfl ht

end LogLimits.Draft

/-! ## Policies -/

namespace InstancePolicy

/-- The name of a policy. -/
def name : InstancePolicy → String
  | reuse => "reuse"
  | fresh => "fresh"

/-- A policy is found by its name. -/
lemma ofName_name (p : InstancePolicy) : ofName p.name = .ok p := by
  cases p <;> rfl

/-- The values that give a policy: its name, or an object with a member of its name and nothing
in it. -/
inductive IsGivenBy (p : InstancePolicy) : Json.Value → Prop
  | name : IsGivenBy p (.string p.name)
  | member : IsGivenBy p (.object [(p.name, .null)])

variable {p : InstancePolicy} {v : Json.Value} {text : List UInt8}

/-- The name of a policy is read as the policy, however it is spelled. -/
lemma readName_append (h : Json.Spells text (Json.textBytes p.name)) (rest : List UInt8) :
    readName (text ++ Json.Byte.quote :: rest) = .ok (p, rest) := by
  have hkey := h.isKey rest
  rw [List.append_assoc, List.singleton_append] at hkey
  simp only [readName, hkey, ofName_name]

/-- The value behind a name is read, if it is `null`. -/
lemma readUnit_append {ws : List UInt8} (hw : Json.Blank ws) (rest : List UInt8) :
    readUnit (ws ++ Json.Byte.n :: 117 :: 108 :: 108 :: rest) = .ok rest := by
  have hskip := Json.skipBlanks_append_cons (b := Json.Byte.n) hw (by decide)
  simp [readUnit, hskip, Json.keyword]

/-- A policy is read from every text of a value that gives it. -/
lemma IsGivenBy.reads (h : p.IsGivenBy v) (ht : v.HasText text) : reader.Reads text p := by
  rcases h with _ | _
  · obtain _ | _ | _ | _ | hs | _ | _ := ht
    refine ⟨⟨_, _, rfl, by decide, by decide⟩, fun before rest hb _ => ?_⟩
    have hskip := Json.skipBlanks_append_cons (b := Json.Byte.quote) hb (by decide)
    simp [reader, Json.Reader.byFirst, hskip, readFrom, readName_append hs]
  · obtain _ | _ | _ | _ | _ | _ | @⟨_, ws, items, hws, hitems⟩ := ht
    obtain _ | ⟨@⟨_, _, before', name, between, _, hb', hs, hbetween, hvalue⟩, _ | _⟩ := hitems
    obtain @⟨_, before'', _, after, hb'', _ | _, ha⟩ := hvalue
    refine ⟨⟨_, _, rfl, by decide, by decide⟩, fun before rest hb _ => ?_⟩
    have hopen := Json.skipBlanks_append_cons (b := Json.Byte.openBrace) hb (by decide)
    have hquote := Json.skipBlanks_append_cons (b := Json.Byte.quote) hb' (by decide)
    have hclose := Json.skipBlanks_append_cons (b := Json.Byte.closeBrace) ha (by decide)
    have hne : Json.Byte.openBrace ≠ Json.Byte.quote := by decide
    simp [reader, Json.Reader.byFirst, hopen, readFrom, hne, readObject, Json.separated,
      Json.skipBlanks_append hws, hquote, readName_append hs, Json.colon_append hbetween,
      readUnit_append hb'', hclose, Json.keyword]

end InstancePolicy

/-! ## Settings -/

namespace Config

/-- Some of the settings, with some of the limits of each log. -/
structure Given where
  maxMemoryPages : Option UInt32
  fuelLimit : Option UInt64
  logLimits : Option LogLimits.Draft
  runLogLimits : Option LogLimits.Draft
  instancePolicy : Option InstancePolicy
  entryPoint : Option String

namespace Given

/-- The settings that are given, with limits filled up. -/
def draft (g : Given) : Draft where
  maxMemoryPages := g.maxMemoryPages
  fuelLimit := g.fuelLimit
  logLimits := g.logLimits.map LogLimits.ofDraft
  runLogLimits := g.runLogLimits.map LogLimits.ofDraft
  instancePolicy := g.instancePolicy
  entryPoint := g.entryPoint

/-- A member that gives one of the settings. -/
inductive Gives (g : Given) : String × Json.Value → Prop
  | maxMemoryPages {n : UInt32} : g.maxMemoryPages = some n →
      Gives g ("max_memory_pages", .number (.integer n.toNat))
  | fuelLimit {n : UInt64} : g.fuelLimit = some n →
      Gives g ("fuel_limit", .number (.integer n.toNat))
  | logLimits {d : LogLimits.Draft} {v : Json.Value} : g.logLimits = some d → d.IsGivenBy v →
      Gives g ("log_limits", v)
  | runLogLimits {d : LogLimits.Draft} {v : Json.Value} : g.runLogLimits = some d →
      d.IsGivenBy v → Gives g ("run_log_limits", v)
  | instancePolicy {p : InstancePolicy} {v : Json.Value} : g.instancePolicy = some p →
      p.IsGivenBy v → Gives g ("instance_policy", v)
  | entryPoint {name : String} : g.entryPoint = some name →
      Gives g ("entry_point", .string name)

/-- The names of the settings that are given. -/
def names (g : Given) : List String :=
  Json.namesGiven [("max_memory_pages", g.maxMemoryPages.isSome),
    ("fuel_limit", g.fuelLimit.isSome), ("log_limits", g.logLimits.isSome),
    ("run_log_limits", g.runLogLimits.isSome), ("instance_policy", g.instancePolicy.isSome),
    ("entry_point", g.entryPoint.isSome)]

/-- An object that gives settings: one member for each of them that is given, in any order. -/
inductive IsGivenBy (g : Given) : Json.Value → Prop
  | mk {ms : List (String × Json.Value)} : (ms.map Prod.fst).Perm g.names →
      (∀ m ∈ ms, g.Gives m) → IsGivenBy g (.object ms)

/-- The settings of some names. -/
def part (g : Given) (names : List String) : Draft where
  maxMemoryPages := if "max_memory_pages" ∈ names then g.maxMemoryPages else none
  fuelLimit := if "fuel_limit" ∈ names then g.fuelLimit else none
  logLimits := if "log_limits" ∈ names then g.draft.logLimits else none
  runLogLimits := if "run_log_limits" ∈ names then g.draft.runLogLimits else none
  instancePolicy := if "instance_policy" ∈ names then g.instancePolicy else none
  entryPoint := if "entry_point" ∈ names then g.entryPoint else none

variable {g : Given}

/-- The settings of all names that are given are all settings. -/
lemma part_eq_draft {names : List String} (h : names.Perm g.names) : g.part names = g.draft := by
  have hmem : ∀ (name : String) {α : Type} (x : Option α),
      (name ∈ g.names ↔ x.isSome = true) → (if name ∈ names then x else none) = x := by
    intro name α x hx
    cases x <;> simp [h.mem_iff, hx]
  simp only [part, draft, Draft.mk.injEq]
  refine ⟨hmem _ _ ?_, hmem _ _ ?_, hmem _ _ ?_, hmem _ _ ?_, hmem _ _ ?_, hmem _ _ ?_⟩ <;>
    simp [Given.names, Json.namesGiven]

/-- A member of a new name is read into the setting of that name. -/
lemma Gives.exists_field {m : String × Json.Value} (hm : g.Gives m) {names : List String}
    (hnew : m.1 ∉ names) :
    ∃ field update, fields.find? (·.name == m.1) = some field ∧
      field.given (g.part names) = false ∧
      (∀ text, m.2.HasText text → field.reader.Reads text update) ∧
      update (g.part names) = g.part (names ++ [m.1]) := by
  rcases hm with @⟨n, hn⟩ | @⟨n, hn⟩ | @⟨d, v, hd, hv⟩ | @⟨d, v, hd, hv⟩ | @⟨p, v, hp, hv⟩ |
    @⟨name, hname⟩
  · exact Json.Field.exists_ofReader (a := n) rfl (by simp [part, hnew]) (fun _ => reads_pages)
      (by simp [part, hn])
  · exact Json.Field.exists_ofReader (a := n) rfl (by simp [part, hnew])
      (fun _ => Json.reads_word (by decide) (by decide)) (by simp [part, hn])
  · exact Json.Field.exists_ofReader (a := LogLimits.ofDraft d) rfl (by simp [part, hnew])
      (fun _ => hv.reads) (by simp [part, draft, hd])
  · exact Json.Field.exists_ofReader (a := LogLimits.ofDraft d) rfl (by simp [part, hnew])
      (fun _ => hv.reads) (by simp [part, draft, hd])
  · exact Json.Field.exists_ofReader (a := p) rfl (by simp [part, hnew]) (fun _ => hv.reads)
      (by simp [part, hp])
  · exact Json.Field.exists_ofReader (a := name) rfl (by simp [part, hnew])
      (fun _ => Json.reads_string) (by simp [part, hname])

/-- The settings that are made of what is given, with the standard value for each of the others; a
limit that is not given inside given limits is that of a single invocation for either log. -/
def config (g : Given) : Config where
  maxMemoryPages := g.maxMemoryPages.getD 256
  fuelLimit := g.fuelLimit.getD 100000000
  logLimits := g.logLimits.elim ⟨4096, 1048576⟩ fun d =>
    ⟨d.maxRecords.getD 4096, d.maxBytes.getD 1048576⟩
  runLogLimits := g.runLogLimits.elim ⟨1048576, 67108864⟩ fun d =>
    ⟨d.maxRecords.getD 4096, d.maxBytes.getD 1048576⟩
  instancePolicy := g.instancePolicy.getD .reuse
  entryPoint := g.entryPoint.getD "contract_main"

/-- What was read is filled up with the standard settings. -/
lemma ofDraft_draft (g : Given) : ofDraft g.draft = g.config := by
  obtain ⟨pages, fuel, logLimits, runLogLimits, policy, entry⟩ := g
  rcases logLimits with _ | d <;> rcases runLogLimits with _ | d' <;> rfl

/-- The settings of a text are those that it gives, and the standard ones where it gives none. -/
theorem IsGivenBy.ofText_eq {v : Json.Value} {text : String} (h : g.IsGivenBy v)
    (ht : v.HasPaddedText (Json.textBytes text)) : ofText text = .ok g.config := by
  obtain @⟨ms, hnames, hms⟩ := h
  have hnodup : (ms.map Prod.fst).Nodup :=
    hnames.nodup_iff.2 (Json.nodup_namesGiven (by simp))
  have htakes := Json.Field.takes_names g.part (fun _ _ hm hnew => hm.exists_field hnew) hms hnodup
  rw [part_eq_draft hnames] at htakes
  rw [← ofDraft_draft]
  exact Json.readAll_of_readsPadded
    (ht.readsPadded fun _ => Json.RecordShape.reads_of_takes htakes rfl)

end Given

/-! ## Files -/

/-- Settings can be used if all memory that they allow can be addressed. -/
lemma validate_eq_ok_iff {c c' : Config} :
    c.validate = .ok c' ↔ c.maxMemoryPages.toNat ≤ greatestPages ∧ c = c' := by
  rw [validate]
  split
  next h => simp [h]
  next h => simp [h]

/-- Settings cannot be used if they allow too many pages, and for no other reason. -/
lemma validate_eq_error_iff {c : Config} {e : ConfigError} :
    c.validate = .error e ↔
      greatestPages < c.maxMemoryPages.toNat ∧ e = .tooManyPages c.maxMemoryPages := by
  rw [validate]
  split
  next h => simp [h]
  next h => simp [Nat.lt_of_not_le h, eq_comm]

/-- The settings in the file of a text are those that the text gives, if they can be used. -/
lemma ofFile_of_ofText {text : String} {c : Config} (h : ofText text = .ok c) :
    ofFile (some text.toUTF8) = c.validate := by
  have hstrict : Utf8.strict text.toUTF8 = some text := Utf8.strict_eq_some_iff.2 rfl
  simp only [ofFile, Option.bind_some, hstrict, h]

/-- The settings in a file can be used. -/
lemma validate_of_ofFile {content : Option ByteArray} {c : Config} (h : ofFile content = .ok c) :
    c.validate = .ok c := by
  unfold ofFile at h
  split at h
  · cases h
  · split at h
    · cases h
    · obtain ⟨hpages, rfl⟩ := validate_eq_ok_iff.1 h
      exact h

/-- A file that gives some of the settings is accepted just if the pages, where it gives them, can
be addressed, and then has the settings that it gives and the standard ones otherwise; too many
pages are the only reason to refuse it.  The settings of whatever file is accepted can be used. -/
theorem ofFile_of_isGivenBy {g : Given} {v : Json.Value} {text : String} (hv : g.IsGivenBy v)
    (ht : v.HasPaddedText (Json.textBytes text)) :
    ((∃ c, ofFile (some text.toUTF8) = .ok c) ↔ ∀ n ∈ g.maxMemoryPages, n.toNat ≤ 32768) ∧
      (∀ c, ofFile (some text.toUTF8) = .ok c → c = g.config) ∧
      (∀ e, ofFile (some text.toUTF8) = .error e →
        ∃ n ∈ g.maxMemoryPages, e = .tooManyPages n) ∧
      ∀ content c, ofFile content = .ok c → c.validate = .ok c := by
  have hfile : ofFile (some text.toUTF8) = g.config.validate :=
    ofFile_of_ofText (hv.ofText_eq ht)
  -- The standard number of pages can be addressed, so only a given one can be too large.
  have hpages : g.config.maxMemoryPages.toNat ≤ greatestPages ↔
      ∀ n ∈ g.maxMemoryPages, n.toNat ≤ 32768 := by
    rcases hn : g.maxMemoryPages with _ | n <;> simp [Given.config, hn, greatestPages]
  refine ⟨?_, fun c hc => ?_, fun e he => ?_, fun _ _ => validate_of_ofFile⟩
  · simp only [hfile, validate_eq_ok_iff, exists_and_left, exists_eq', and_true, hpages]
  · exact (validate_eq_ok_iff.1 (hfile ▸ hc)).2.symm
  · obtain ⟨hmany, rfl⟩ := validate_eq_error_iff.1 (hfile ▸ he)
    rcases hn : g.maxMemoryPages with _ | n
    · simp [Given.config, hn, greatestPages] at hmany
    · exact ⟨n, rfl, by simp [Given.config, hn]⟩

/-- A text that gives three of the settings, one of them with a single limit, with blanks and with
an escape in a name. -/
def partialText : String :=
  "\n\x7b \"run_log_limits\" : \x7b\"max_bytes\":7\x7d ,\"\\u0065ntry_point\":\"main\"," ++
    "\"instance_policy\":\x7b\"fresh\":null\x7d \x7d "

/-- The value that the text stands for. -/
def partialValue : Json.Value :=
  .object [("run_log_limits", .object [("max_bytes", .number (.integer (7 : UInt64).toNat))]),
    ("entry_point", .string "main"), ("instance_policy", .object [("fresh", .null)])]

/-- The settings that the text gives. -/
def partialGiven : Given :=
  ⟨none, none, none, some ⟨none, some 7⟩, some .fresh, some "main"⟩

/-- The value gives these settings. -/
lemma isGivenBy_partialValue : partialGiven.IsGivenBy partialValue := by
  have hlimits : (⟨none, some 7⟩ : LogLimits.Draft).IsGivenBy
      (.object [("max_bytes", .number (.integer (7 : UInt64).toNat))]) := by
    refine .mk (.refl _) fun m hm => ?_
    obtain rfl := List.mem_singleton.1 hm
    exact .maxBytes rfl
  refine .mk (List.Perm.cons _ (.swap _ _ _)) fun m hm => ?_
  simp only [List.mem_cons, List.not_mem_nil, or_false] at hm
  rcases hm with rfl | rfl | rfl
  · exact .runLogLimits rfl hlimits
  · exact .entryPoint rfl
  · exact .instancePolicy rfl .member

/-- The text is one of the value. -/
lemma hasPaddedText_partialText : partialValue.HasPaddedText (Json.textBytes partialText) := by
  have hblank : Json.Blank [32] := by
    intro b hb
    obtain rfl := List.mem_singleton.1 hb
    rfl
  have hline : Json.Blank [10] := by
    intro b hb
    obtain rfl := List.mem_singleton.1 hb
    rfl
  have hunit : Json.HexUnit [48, 48, 54, 53] 101 :=
    .mk (.decimal (d := 0) (by decide)) (.decimal (d := 0) (by decide))
      (.decimal (d := 6) (by decide)) (.decimal (d := 5) (by decide))
  have hname : ∀ name : String,
      Json.Spells ((Json.textBytes name).flatMap Json.escapedByte) (Json.textBytes name) :=
    fun name => Json.spells_flatMap (Json.textBytes name)
  have hentry : Json.Spells ([92, 117, 48, 48, 54, 53] ++
      (Json.textBytes "ntry_point").flatMap Json.escapedByte) (Json.textBytes "entry_point") :=
    .escaped (c := 'e') (.unit (by decide) hunit) (hname "ntry_point")
  have hlimits : (Json.Value.object
      [("max_bytes", .number (.integer (7 : UInt64).toNat))]).HasText _ :=
    .object Json.blank_nil (.cons (.mk Json.blank_nil (hname _) Json.blank_nil
      (Json.Value.HasText.integer _).padded) .nil)
  have hpolicy : (Json.Value.object [("fresh", .null)]).HasText _ :=
    .object Json.blank_nil (.cons (.mk Json.blank_nil (hname _) Json.blank_nil
      Json.Value.HasText.null.padded) .nil)
  have htext : partialValue.HasPaddedText _ :=
    .mk hline
      (.object Json.blank_nil
        (.cons (.mk hblank (hname _) hblank (.mk hblank hlimits hblank))
          (.cons (.mk Json.blank_nil hentry Json.blank_nil
              (Json.Value.HasText.string (hname _)).padded)
            (.cons (.mk Json.blank_nil (hname _) Json.blank_nil (.mk Json.blank_nil hpolicy hblank))
              .nil))))
      hblank
  -- The numeral is put in by hand: its digits are not computed by deciding.
  have hseven : Decimal.intBytes (7 : UInt64).toNat = [55] :=
    congrArg (List.map Decimal.digitByte) (Decimal.digits_of_lt (by decide))
  convert htext using 1
  rw [hseven]
  decide

/-- The settings of a file with the text. -/
theorem ofFile_partialText :
    partialGiven.IsGivenBy partialValue ∧
      partialValue.HasPaddedText (Json.textBytes partialText) ∧
      ofFile (some partialText.toUTF8) =
        .ok ⟨256, 100000000, ⟨4096, 1048576⟩, ⟨4096, 7⟩, .fresh, "main"⟩ := by
  obtain ⟨haccepted, hconfig, -⟩ :=
    ofFile_of_isGivenBy isGivenBy_partialValue hasPaddedText_partialText
  obtain ⟨c, hc⟩ := haccepted.2 (fun n hn => nomatch hn)
  have hgiven := hconfig c hc
  rw [hgiven] at hc
  exact ⟨isGivenBy_partialValue, hasPaddedText_partialText, hc⟩

end Config

end ContractHost
