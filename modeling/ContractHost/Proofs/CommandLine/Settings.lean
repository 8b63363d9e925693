import Mathlib.Tactic.Common
import ContractHost.CommandLine.Run
import ContractHost.Proofs.Config.Given

/-!
# The settings of a run

Arguments give settings in place of those of the file (`Options.Replaces`).  The settings of the
file are checked on their own before any of them is replaced, and the result is checked again
(`Options.settings_eq`).  So the settings of a run are those that result, if the numbers of pages
both in the file and in the result can be addressed; a number in the file that cannot be addressed
is refused, also where an argument replaces it, and this is the only influence that a replaced
value has (`Options.settings_of_replaces`).
-/

namespace ContractHost.CommandLine.Options

/-- The settings `c'` are those that the options give, and otherwise those of `c`. -/
structure Replaces (o : Options) (c c' : Config) : Prop where
  maxMemoryPages : c'.maxMemoryPages = o.maxMemoryPages.getD c.maxMemoryPages
  fuelLimit : c'.fuelLimit = o.fuel.getD c.fuelLimit
  logLimits : c'.logLimits = c.logLimits
  runLogLimits : c'.runLogLimits = c.runLogLimits
  instancePolicy : c'.instancePolicy = if o.freshInstance then .fresh else c.instancePolicy
  entryPoint : c'.entryPoint = o.entry.getD c.entryPoint

variable {o : Options} {path text : String} {c c' : Config}

/-- The options replace settings as they override them. -/
lemma Replaces.override_eq (h : o.Replaces c c') : o.override c = c' := by
  obtain ⟨pages, fuel, logLimits, runLogLimits, policy, entry⟩ := c'
  obtain ⟨rfl, rfl, rfl, rfl, rfl, rfl⟩ := h
  rfl

/-- The settings of a file are checked, and those that result are checked again. -/
lemma settings_eq (hpath : o.config = some path) (h : Config.ofText text = .ok c) :
    o.settings (some text.toUTF8) = c.validate.bind fun c => (o.override c).validate := by
  simp only [settings, hpath, Config.ofFile_of_ofText h]
  rcases c.validate with e | c <;> rfl

/-- A run with a file has settings just if the pages in the file and those in the end can be
addressed. -/
lemma settings_eq_ok_iff (hpath : o.config = some path) (h : Config.ofText text = .ok c)
    (hc : o.Replaces c c') {r : Config} :
    o.settings (some text.toUTF8) = .ok r ↔
      c.maxMemoryPages.toNat ≤ 32768 ∧ c'.maxMemoryPages.toNat ≤ 32768 ∧ r = c' := by
  rw [settings_eq hpath h]
  rcases hv : c.validate with e | c₀
  · obtain ⟨hmany, -⟩ := Config.validate_eq_error_iff.1 hv
    have hnot : ¬ c.maxMemoryPages.toNat ≤ 32768 := Nat.not_le_of_lt hmany
    simp [Except.bind, hnot]
  · obtain ⟨hle, rfl⟩ := Config.validate_eq_ok_iff.1 hv
    have hle : c.maxMemoryPages.toNat ≤ 32768 := hle
    simp only [Except.bind, hc.override_eq, Config.validate_eq_ok_iff, hle, true_and,
      Config.greatestPages, @eq_comm _ r]

/-- A run with a file is refused for the pages in the file or, if these can be addressed, for those
in the end. -/
lemma settings_eq_error_iff (hpath : o.config = some path) (h : Config.ofText text = .ok c)
    (hc : o.Replaces c c') {e : ConfigError} :
    o.settings (some text.toUTF8) = .error e ↔
      32768 < c.maxMemoryPages.toNat ∧ e = .tooManyPages c.maxMemoryPages ∨
        c.maxMemoryPages.toNat ≤ 32768 ∧ 32768 < c'.maxMemoryPages.toNat ∧
          e = .tooManyPages c'.maxMemoryPages := by
  rw [settings_eq hpath h]
  rcases hv : c.validate with e' | c₀
  · obtain ⟨hmany, rfl⟩ := Config.validate_eq_error_iff.1 hv
    have hmany : 32768 < c.maxMemoryPages.toNat := hmany
    simp [Except.bind, hmany, Nat.not_le_of_lt hmany, eq_comm]
  · obtain ⟨hle, rfl⟩ := Config.validate_eq_ok_iff.1 hv
    have hle : c.maxMemoryPages.toNat ≤ 32768 := hle
    simp only [Except.bind, hc.override_eq, Config.validate_eq_error_iff, hle, true_and,
      Nat.not_lt_of_le hle, false_and, false_or, Config.greatestPages]

/-- The settings of a run with a file are those of the file with the ones that the options give in
their place, just if the numbers of pages of both can be addressed; otherwise the first that cannot
is refused.  So what can be addressed in the end is refused only for a number in the file that
another replaces, and apart from that a value that is replaced has no influence. -/
theorem settings_of_replaces (hpath : o.config = some path) (h : Config.ofText text = .ok c)
    (hc : o.Replaces c c') :
    (∀ r, o.settings (some text.toUTF8) = .ok r ↔
        c.maxMemoryPages.toNat ≤ 32768 ∧ c'.maxMemoryPages.toNat ≤ 32768 ∧ r = c') ∧
      (∀ e, o.settings (some text.toUTF8) = .error e ↔
        32768 < c.maxMemoryPages.toNat ∧ e = .tooManyPages c.maxMemoryPages ∨
          c.maxMemoryPages.toNat ≤ 32768 ∧ 32768 < c'.maxMemoryPages.toNat ∧
            e = .tooManyPages c'.maxMemoryPages) ∧
      (((∃ r, o.settings (some text.toUTF8) = .ok r) ↔ c'.maxMemoryPages.toNat ≤ 32768) ↔
        ¬ (32768 < c.maxMemoryPages.toNat ∧ c'.maxMemoryPages.toNat ≤ 32768)) ∧
      ∀ text₂ c₂, Config.ofText text₂ = .ok c₂ → o.Replaces c₂ c' →
        c.maxMemoryPages.toNat ≤ 32768 → c₂.maxMemoryPages.toNat ≤ 32768 →
          o.settings (some text₂.toUTF8) = o.settings (some text.toUTF8) := by
  refine ⟨fun r => settings_eq_ok_iff hpath h hc, fun e => settings_eq_error_iff hpath h hc, ?_,
    fun text₂ c₂ h₂ hc₂ hle hle₂ => ?_⟩
  · simp only [settings_eq_ok_iff hpath h hc, exists_and_left, exists_eq, and_true]
    omega
  · rcases hr : o.settings (some text.toUTF8) with e | r
    · rcases (settings_eq_error_iff hpath h hc).1 hr with ⟨hmany, -⟩ | ⟨-, hmany, rfl⟩
      · exact absurd hle (Nat.not_le_of_lt hmany)
      · exact (settings_eq_error_iff hpath h₂ hc₂).2 (Or.inr ⟨hle₂, hmany, rfl⟩)
    · obtain ⟨-, hle', rfl⟩ := (settings_eq_ok_iff hpath h hc).1 hr
      exact (settings_eq_ok_iff hpath h₂ hc₂).2 ⟨hle₂, hle', rfl⟩

/-- A text that allows more pages than can be addressed. -/
def manyPagesText : String := "\x7b\"max_memory_pages\":40000\x7d"

/-- Settings with more pages than can be addressed. -/
def manyPages : Config := { Config.standard with maxMemoryPages := 40000 }

/-- The settings that the text gives. -/
lemma ofText_manyPagesText : Config.ofText manyPagesText = .ok manyPages := by
  have hgiven : (⟨some 40000, .none, .none, .none, .none, .none⟩ : Config.Given).IsGivenBy
      (.object [("max_memory_pages", .number (.integer (40000 : UInt32).toNat))]) := by
    refine .mk (.refl _) fun m hm => ?_
    obtain rfl := List.mem_singleton.1 hm
    exact .maxMemoryPages rfl
  have htext : (Json.Value.object
      [("max_memory_pages", .number (.integer (40000 : UInt32).toNat))]).HasText _ :=
    .object Json.blank_nil (.cons (.mk Json.blank_nil (Json.spells_flatMap _) Json.blank_nil
      (Json.Value.HasText.integer _).padded) .nil)
  -- The numeral is put in by hand: its digits are not computed by deciding.
  have hdigits : Decimal.digits 40000 = [4, 0, 0, 0, 0] := by simp [Decimal.digits]
  have hnumeral : Decimal.intBytes (40000 : UInt32).toNat = [52, 48, 48, 48, 48] :=
    congrArg (List.map Decimal.digitByte) hdigits
  refine hgiven.ofText_eq ?_
  convert htext.padded using 1
  rw [hnumeral]
  decide

/-- Options that name a file and allow fewer pages. -/
def fewPages : Options := { none with maxMemoryPages := some 100, config := some "c.json" }

/-- A number of pages in the file that an option replaces by one that can be addressed is refused
nevertheless. -/
theorem settings_fewPages :
    Config.ofText manyPagesText = .ok manyPages ∧
      fewPages.Replaces manyPages { Config.standard with maxMemoryPages := 100 } ∧
      ¬ ∃ r, fewPages.settings (some manyPagesText.toUTF8) = .ok r := by
  have hsettings := settings_eq (o := fewPages) rfl ofText_manyPagesText
  refine ⟨ofText_manyPagesText, ⟨rfl, rfl, rfl, rfl, rfl, rfl⟩, fun ⟨r, hr⟩ => ?_⟩
  rw [hsettings] at hr
  cases hr

/-- Options that name a file and give an entry point and a limit for fuel. -/
def otherEntry : Options :=
  { none with entry := some "go", fuel := some 5, config := some "c.json" }

/-- The settings of a run with both. -/
theorem settings_otherEntry :
    otherEntry.settings (some Config.partialText.toUTF8) =
      .ok ⟨256, 5, ⟨4096, 1048576⟩, ⟨4096, 7⟩, .fresh, "go"⟩ := by
  have htext := Config.isGivenBy_partialValue.ofText_eq Config.hasPaddedText_partialText
  have hreplaces : otherEntry.Replaces Config.partialGiven.config
      ⟨256, 5, ⟨4096, 1048576⟩, ⟨4096, 7⟩, .fresh, "go"⟩ := ⟨rfl, rfl, rfl, rfl, rfl, rfl⟩
  have hconfig : otherEntry.config = some "c.json" := rfl
  exact ((settings_of_replaces hconfig htext hreplaces).1 _).2
    ⟨by decide, by decide, rfl⟩

end ContractHost.CommandLine.Options
