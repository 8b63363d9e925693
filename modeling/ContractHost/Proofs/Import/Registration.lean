import Mathlib.Data.Finset.Card
import Mathlib.Data.List.Dedup
import Mathlib.Data.List.Perm.Basic
import Mathlib.Tactic.Common
import ContractHost.Bridge

/-!
# What registrations come to

A registry is made by registrations, one after the other, and a later one takes the place of an
earlier one under the same name.  So what counts under each name is its last registration
(`Registry.resolve?_foldl_register`), and every registry comes about in this way
(`Registry.exists_registrations`).

The order of the bindings inside a registry is that of the registrations, but nothing that a
registry answers depends on it: registries that resolve all names alike hold the same bindings in
some order (`Registry.perm_of_resolve?_eq`), and the names are put in order before they are shown.
The main statement is `Registry.registrations_decide`.
-/

namespace ContractHost

/-- The functions of the bridge in the order in which they are registered. -/
def Bridge.bindings : List Binding :=
  [reasonLenBinding, reasonBinding, sendTransactionBinding, errorBinding]

namespace Registry

variable {r r' : Registry} {b : Binding} {space name : String}

/-! ## The last registration of a name -/

/-- A registered function is found under its name, and nothing changes under other names. -/
lemma resolve?_register (r : Registry) (b : Binding) (space name : String) :
    (r.register b).resolve? space name =
      if b.key = (space, name) then some b else r.resolve? space name := by
  unfold resolve? register
  by_cases hkey : b.key = (space, name)
  · rw [if_pos hkey, List.find?_cons_of_pos (by simpa using hkey)]
  · rw [if_neg hkey, List.find?_cons_of_neg (by simpa using hkey), others, List.find?_filter]
    congr 1
    funext c
    by_cases hc : c.key = (space, name)
    · have hne : ¬(space, name) = b.key := fun hsame => hkey hsame.symm
      simp [hc, hne]
    · simp [hc]

/-- After several registrations the last one under a name is found, or else what was found
before. -/
lemma resolve?_foldl_register (registrations : List Binding) (r : Registry) (space name : String) :
    (registrations.foldl register r).resolve? space name =
      ((registrations.filter (·.key = (space, name))).getLast?).or (r.resolve? space name) := by
  induction registrations generalizing r with
  | nil => rfl
  | cons b registrations ih =>
    rw [List.foldl_cons, ih, resolve?_register]
    by_cases hkey : b.key = (space, name)
    · rw [if_pos hkey, List.filter_cons_of_pos (by simpa using hkey), List.getLast?_cons]
      cases (registrations.filter (·.key = (space, name))).getLast? <;> rfl
    · rw [if_neg hkey, List.filter_cons_of_neg (by simpa using hkey)]

/-- The last of the registrations under a name. -/
def last? (registrations : List Binding) (key : String × String) : Option Binding :=
  (registrations.filter (·.key = key)).getLast?

/-- The registry that registrations make of an empty one. -/
def ofRegistrations (registrations : List Binding) : Registry := registrations.foldl register empty

/-- What is found under a name is its last registration. -/
lemma resolve?_ofRegistrations (registrations : List Binding) (space name : String) :
    (ofRegistrations registrations).resolve? space name = last? registrations (space, name) := by
  have hempty : empty.resolve? space name = none := rfl
  rw [ofRegistrations, resolve?_foldl_register, hempty, Option.or_none]
  rfl

/-- A name has no last registration just if there is none under it. -/
lemma last?_eq_none_iff {registrations : List Binding} {key : String × String} :
    last? registrations key = none ↔ ∀ b ∈ registrations, b.key ≠ key := by
  rw [last?, List.getLast?_eq_none_iff, List.filter_eq_nil_iff]
  simp

/-- Every registry comes about by registrations. -/
lemma exists_registrations (r : Registry) :
    ∃ registrations : List Binding, registrations.foldl register .empty = r := by
  have hfoldr : ∀ bs : List Binding, (bs.map Binding.key).Nodup →
      (bs.foldr (fun b (r : Registry) => r.register b) Registry.empty).bindings = bs := by
    intro bs
    induction bs with
    | nil => exact fun _ => rfl
    | cons b bs ih =>
      intro hnodup
      rw [List.map_cons, List.nodup_cons] at hnodup
      obtain ⟨hfresh, hrest⟩ := hnodup
      have hothers : bs.filter (·.key != b.key) = bs := by
        refine List.filter_eq_self.2 fun c hc => ?_
        have hne : c.key ≠ b.key := fun hsame => hfresh (hsame ▸ List.mem_map_of_mem hc)
        simpa using hne
      have hbindings : (bs.foldr (fun b (r : Registry) => r.register b) Registry.empty).others
          b.key = bs := by
        rw [others, ih hrest, hothers]
      exact congrArg (b :: ·) hbindings
  refine ⟨r.bindings.reverse, ?_⟩
  rw [List.foldl_reverse]
  have hsame := hfoldr r.bindings r.keys_nodup
  generalize r.bindings.foldr (fun b (r : Registry) => r.register b) Registry.empty = made
    at hsame
  obtain ⟨bindings, hnodup⟩ := made
  obtain ⟨bindings', hnodup'⟩ := r
  cases hsame
  rfl

/-! ## What a registry holds -/

/-- Under different names every function is found under its own. -/
lemma find?_key_of_nodup {bs : List Binding} (h : (bs.map Binding.key).Nodup) (hb : b ∈ bs) :
    bs.find? (·.key == b.key) = some b := by
  induction bs with
  | nil => cases hb
  | cons c bs ih =>
    rw [List.map_cons, List.nodup_cons] at h
    rcases List.mem_cons.1 hb with rfl | hb
    · simp
    · have hne : c.key ≠ b.key := fun heq => h.1 (heq ▸ List.mem_map_of_mem hb)
      rw [List.find?_cons_of_neg (by simpa using hne), ih h.2 hb]

/-- A function is found under a name just if the registry holds it and the name is its own. -/
lemma resolve?_eq_some_iff :
    r.resolve? space name = some b ↔ b ∈ r.bindings ∧ b.key = (space, name) := by
  constructor
  · intro h
    exact ⟨List.mem_of_find?_eq_some h, by simpa using List.find?_some h⟩
  · rintro ⟨hmem, hkey⟩
    rw [resolve?, ← hkey]
    exact find?_key_of_nodup r.keys_nodup hmem

/-- Nothing is found under a name just if the registry holds no function of that name. -/
lemma resolve?_eq_none_iff :
    r.resolve? space name = none ↔ ∀ b ∈ r.bindings, b.key ≠ (space, name) := by
  rw [resolve?, List.find?_eq_none]
  simp

/-- The names of a registry are those under which something is found. -/
lemma mem_keys_iff {key : String × String} :
    key ∈ r.bindings.map Binding.key ↔ r.resolve? key.1 key.2 ≠ none := by
  rw [Ne, resolve?_eq_none_iff, List.mem_map]
  push Not
  exact Iff.rfl

/-- A registry holds one function for each name that was registered. -/
lemma size_ofRegistrations (registrations : List Binding) :
    (ofRegistrations registrations).size = (registrations.map Binding.key).toFinset.card := by
  have hkeys : ((ofRegistrations registrations).bindings.map Binding.key).toFinset =
      (registrations.map Binding.key).toFinset := by
    ext key
    rw [List.mem_toFinset, List.mem_toFinset, mem_keys_iff, resolve?_ofRegistrations, Ne,
      last?_eq_none_iff, List.mem_map]
    push Not
    exact Iff.rfl
  rw [← hkeys, List.toFinset_card_of_nodup (ofRegistrations registrations).keys_nodup,
    List.length_map]
  rfl

/-- Registries that resolve all names alike hold the same functions, in whatever order. -/
lemma perm_of_resolve?_eq (h : ∀ space name, r'.resolve? space name = r.resolve? space name) :
    r'.bindings.Perm r.bindings := by
  refine (List.perm_ext_iff_of_nodup (.of_map _ r'.keys_nodup) (.of_map _ r.keys_nodup)).2 ?_
  intro b
  have hmem : ∀ r : Registry, b ∈ r.bindings ↔ r.resolve? b.space b.name = some b := by
    intro r
    rw [resolve?_eq_some_iff]
    exact (and_iff_left rfl).symm
  rw [hmem r', hmem r, h]

/-! ## What does not depend on the order -/

/-- Texts that are the same up to their order are put in the same order. -/
lemma mergeSort_eq_of_perm {texts texts' : List String} (h : texts'.Perm texts) :
    texts'.mergeSort (· ≤ ·) = texts.mergeSort (· ≤ ·) := by
  have hsorted : ∀ texts : List String,
      (texts.mergeSort (· ≤ ·)).Pairwise fun a b => decide (a ≤ b) = true := by
    refine List.pairwise_mergeSort (fun a b c hab hbc => ?_) fun a b => ?_
    · exact decide_eq_true (String.le_trans (of_decide_eq_true hab) (of_decide_eq_true hbc))
    · rw [Bool.or_eq_true, decide_eq_true_eq, decide_eq_true_eq]
      exact String.le_total a b
  refine List.Perm.eq_of_pairwise (fun a b _ _ hab hba => ?_) (hsorted texts') (hsorted texts) ?_
  · exact String.le_antisymm (of_decide_eq_true hab) (of_decide_eq_true hba)
  · exact (List.mergeSort_perm _ _).trans (h.trans (List.mergeSort_perm _ _).symm)

/-- Registries that resolve all names alike answer everything alike. -/
lemma answers_eq (h : ∀ space name, r'.resolve? space name = r.resolve? space name) :
    (∀ space name, r'.resolve space name = r.resolve space name) ∧
      (∀ imports, r'.link imports = r.link imports) ∧ r'.size = r.size ∧
      r'.description = r.description := by
  have hperm := perm_of_resolve?_eq h
  have hone : r'.linkOne = r.linkOne := by
    funext decl
    simp only [linkOne, h]
  have hnames : r'.names = r.names := mergeSort_eq_of_perm (hperm.map _)
  refine ⟨fun space name => ?_, fun imports => ?_, hperm.length_eq, ?_⟩
  · simp only [resolve, h]
  · exact congrArg (List.mapM · imports) hone
  · unfold description
    rw [hnames]

/-- Whatever is registered, with the bridge first or without it: the registry has as many functions
as there are names, each being a pair of a namespace and a name in it; under each of them it finds
the last registration, and for any other name it fails with an error that names it.  Registrations
among which each name has the same last one lead to the same answers, whatever their order. -/
theorem registrations_decide (registrations : List Binding) :
    registrations.foldl register Bridge.registry =
        ofRegistrations (Bridge.bindings ++ registrations) ∧
      (ofRegistrations registrations).size = (registrations.map Binding.key).toFinset.card ∧
      (∀ space name,
        (∀ b, (ofRegistrations registrations).resolve space name = .ok b ↔
          last? registrations (space, name) = some b) ∧
        ∀ e, (ofRegistrations registrations).resolve space name = .error e ↔
          (∀ b ∈ registrations, b.key ≠ (space, name)) ∧ e = .unresolved space name) ∧
      ∀ registrations', (∀ key, last? registrations' key = last? registrations key) →
        (∀ space name, (ofRegistrations registrations').resolve space name =
          (ofRegistrations registrations).resolve space name) ∧
        (∀ imports, (ofRegistrations registrations').link imports =
          (ofRegistrations registrations).link imports) ∧
        (ofRegistrations registrations').size = (ofRegistrations registrations).size ∧
        (ofRegistrations registrations').description =
          (ofRegistrations registrations).description := by
  refine ⟨?_, size_ofRegistrations registrations, fun space name => ?_,
    fun registrations' hlast => answers_eq fun space name => ?_⟩
  · rw [ofRegistrations, List.foldl_append]
    rfl
  · rw [← last?_eq_none_iff, resolve, resolve?_ofRegistrations]
    rcases last? registrations (space, name) with _ | b
    · simp [eq_comm]
    · simp
  · rw [resolve?_ofRegistrations, resolve?_ofRegistrations, hlast]

/-- A function without parameters that returns one value. -/
def constant (space name : String) (value : Int32) : Binding :=
  ⟨space, name, ⟨0, 1⟩, .onContext fun context _ _ => (context, .ok (some value))⟩

/-- Two names that are read alike when their parts are joined, one of which is registered twice. -/
def joined : List Binding :=
  [constant "a::b" "c" 1, constant "a" "b::c" 2, constant "a::b" "c" 3]

/-- The same names, each registered once and in the other order. -/
def joinedOnce : List Binding := [constant "a::b" "c" 3, constant "a" "b::c" 2]

/-- The two names are kept apart, and what was registered first is gone without a trace. -/
theorem registrations_decide_joined :
    (∀ key, last? joinedOnce key = last? joined key) ∧ (ofRegistrations joined).size = 2 ∧
      (ofRegistrations joinedOnce).size = 2 ∧
      (ofRegistrations joinedOnce).resolve "a::b" "c" = .ok (constant "a::b" "c" 3) ∧
      (ofRegistrations joinedOnce).resolve "a" "b::c" = .ok (constant "a" "b::c" 2) ∧
      (ofRegistrations joined).names = ["a::b::c", "a::b::c"] ∧
      (ofRegistrations joinedOnce).description = (ofRegistrations joined).description := by
  have hlast : ∀ key, last? joinedOnce key = last? joined key := by
    intro key
    by_cases hc : ("a::b", "c") = key
    · subst hc
      rfl
    · by_cases hb : ("a", "b::c") = key
      · subst hb
        rfl
      · simp [last?, joinedOnce, joined, constant, Binding.key, hb, hc]
  obtain ⟨-, hsize, hresolve, horder⟩ := registrations_decide joined
  obtain ⟨hsame, -, hsize', hdescription⟩ := horder joinedOnce hlast
  have htwo : (ofRegistrations joined).size = 2 := hsize.trans (by decide)
  have hnames : (ofRegistrations joined).names.Perm (List.replicate 2 "a::b::c") :=
    List.mergeSort_perm _ _
  refine ⟨hlast, htwo, hsize'.trans htwo, ?_, ?_, List.perm_replicate.1 hnames, hdescription⟩
  · rw [hsame]
    exact ((hresolve "a::b" "c").1 _).2 rfl
  · rw [hsame]
    exact ((hresolve "a" "b::c").1 _).2 rfl

end Registry

end ContractHost
