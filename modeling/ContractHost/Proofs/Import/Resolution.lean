import Mathlib.Data.List.Forall2
import Mathlib.Tactic.Common
import ContractHost.Proofs.Import.Linking

/-!
# Which imports link

A registry provides what a declaration asks for if it holds a function of that name and signature
(`Registry.Provides`), and refuses it for one of three reasons otherwise (`Registry.Refuses`).  A
list of declarations is linked to the functions that are provided for them, one by one, and the
first declaration that is refused decides the error (`Registry.link_exact`).
-/

namespace ContractHost.Registry

variable {r : Registry} {decl : ImportDecl} {b : Binding} {e : LinkError}

/-- The registry holds the function that the declaration asks for. -/
structure Provides (r : Registry) (decl : ImportDecl) (b : Binding) : Prop where
  /-- The function is registered. -/
  mem : b ∈ r.bindings
  /-- The function is in the namespace that is declared. -/
  space_eq : b.space = decl.space
  /-- The function has the name that is declared. -/
  name_eq : b.name = decl.name
  /-- A function of the same signature is declared. -/
  type_eq : decl.type = .function b.signature

/-- Why the registry does not have what the declaration asks for: nothing is registered under the
name, whatever the type is; or something is, but no function is declared; or the function that is
declared has another signature. -/
inductive Refuses (r : Registry) (decl : ImportDecl) : LinkError → Prop
  | unresolved (h : ∀ b ∈ r.bindings, b.key ≠ decl.key) :
    Refuses r decl (.unresolved decl.space decl.name)
  | notAFunction {b : Binding} {description : String} (hmem : b ∈ r.bindings)
    (hkey : b.key = decl.key) (htype : decl.type = .unsupported description) :
    Refuses r decl (.notAFunction decl.space decl.name description)
  | signatureMismatch {b : Binding} {declared : Signature} (hmem : b ∈ r.bindings)
    (hkey : b.key = decl.key) (htype : decl.type = .function declared)
    (hne : declared ≠ b.signature) :
    Refuses r decl (.signatureMismatch decl.space decl.name declared.text b.signature)

/-- A declaration is linked to the function that is provided for it. -/
lemma linkOne_eq_ok_iff_provides : r.linkOne decl = .ok b ↔ r.Provides decl b := by
  rw [linkOne_eq_ok_iff, resolve?_eq_some_iff, Binding.key, Prod.mk.injEq]
  constructor
  · rintro ⟨⟨hmem, hspace, hname⟩, htype⟩
    exact ⟨hmem, hspace, hname, htype⟩
  · rintro ⟨hmem, hspace, hname, htype⟩
    exact ⟨⟨hmem, hspace, hname⟩, htype⟩

/-- The error for a declaration is the reason why it is refused. -/
lemma linkOne_eq_error_iff : r.linkOne decl = .error e ↔ r.Refuses decl e := by
  constructor
  · intro h
    unfold linkOne at h
    split at h
    next hnone =>
      cases h
      exact .unresolved (resolve?_eq_none_iff.1 hnone)
    next b hb =>
      obtain ⟨hmem, hkey⟩ := resolve?_eq_some_iff.1 hb
      split at h
      next declared htype =>
        split at h
        · cases h
        next hne =>
          cases h
          exact .signatureMismatch hmem hkey htype hne
      next description htype =>
        cases h
        exact .notAFunction hmem hkey htype
  · rintro (hnone | ⟨hmem, hkey, htype⟩ | ⟨hmem, hkey, htype, hne⟩)
    · have hresolve : r.resolve? decl.space decl.name = none := resolve?_eq_none_iff.2 hnone
      simp only [linkOne, hresolve]
    · have hresolve := resolve?_eq_some_iff.2 ⟨hmem, hkey⟩
      simp only [linkOne, hresolve, htype]
    · have hresolve := resolve?_eq_some_iff.2 ⟨hmem, hkey⟩
      simp only [linkOne, hresolve, htype, if_neg hne]

/-- Declarations, as many as there may be and however often a name occurs among them, are linked
just if the registry provides a function for each of them, and then they are linked to these
functions, in order.  Otherwise the error is the reason why a declaration is refused, and a function
is provided for each one before it. -/
theorem link_exact (r : Registry) (imports : List ImportDecl) :
    ((∃ bs, r.link imports = .ok bs) ↔ ∀ decl ∈ imports, ∃ b, r.Provides decl b) ∧
      (∀ bs, r.link imports = .ok bs ↔ List.Forall₂ r.Provides imports bs) ∧
      ∀ e, r.link imports = .error e ↔ ∃ before decl after, imports = before ++ decl :: after ∧
        (∀ earlier ∈ before, ∃ b, r.Provides earlier b) ∧ r.Refuses decl e := by
  have hok : ∀ bs, r.link imports = .ok bs ↔ List.Forall₂ r.Provides imports bs := by
    intro bs
    simp only [link, mapM_eq_ok_iff, linkOne_eq_ok_iff_provides]
  have herror : ∀ e, r.link imports = .error e ↔ ∃ before decl after,
      imports = before ++ decl :: after ∧ (∀ earlier ∈ before, ∃ b, r.Provides earlier b) ∧
        r.Refuses decl e := by
    intro e
    simp only [link, mapM_eq_error_iff, linkOne_eq_ok_iff_provides, linkOne_eq_error_iff]
  refine ⟨⟨?_, fun hall => ?_⟩, hok, herror⟩
  · rintro ⟨bs, hbs⟩ decl hdecl
    have hall := (hok bs).1 hbs
    obtain ⟨i, rfl⟩ := List.mem_iff_get.1 hdecl
    exact ⟨_, hall.get i.isLt (hall.length_eq ▸ i.isLt)⟩
  · rcases hlink : r.link imports with e | bs
    · -- A declaration for which a function is provided is not refused.
      obtain ⟨before, decl, after, rfl, -, hrefused⟩ := (herror e).1 hlink
      obtain ⟨b, hb⟩ := hall decl (List.mem_append_right before List.mem_cons_self)
      cases (linkOne_eq_ok_iff_provides.2 hb).symm.trans (linkOne_eq_error_iff.2 hrefused)
    · exact ⟨bs, rfl⟩

end ContractHost.Registry
