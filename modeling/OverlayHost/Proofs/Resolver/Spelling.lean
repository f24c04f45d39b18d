import OverlayHost.Proofs.Resolver.Routing

/-!
# Spellings of a hostname

Two spellings of a hostname, under two spellings of the suffix, are resolved in the same way: `resolve_of_spellings` says
that they have one route, one address and one answer, and that the backends are asked for the same name.
-/

set_option autoImplicit false

namespace OverlayHost.Resolver

open Hostname Text

variable {suffix hostname writtenSuffix written : String} {network : Net.Network}

theorem new_of_spells (htrimmed : Trimmed suffix.toList) (hlast : suffix.toList.getLast? ≠ some '.')
    (h : SpellsSuffix suffix writtenSuffix) : new network writtenSuffix = new network suffix := by
  rw [new, new, canonicalSuffix_of_spells htrimmed hlast h]

/-- What a hostname resolves to is what its canonical name says. -/
theorem resolve_congr {σ : Type} (resolver : Resolver) (backends : Backends σ) (state : σ)
    (h : canonical written = canonical hostname) :
    resolver.resolve backends written state = resolver.resolve backends hostname state := by
  rw [resolve, resolve, h]

/-- Blanks around a hostname, the case of its letters and a dot at its end make no difference to what it resolves to, nor
do they for the suffix, which may have dots in front of it besides. -/
theorem resolve_of_spellings (hhostname : Trimmed hostname.toList) (hdot : hostname.toList.getLast? ≠ some '.')
    (hsuffix : Trimmed suffix.toList) (hsuffixDot : suffix.toList.getLast? ≠ some '.')
    (hspells : Spells hostname written) (hspellsSuffix : SpellsSuffix suffix writtenSuffix) :
    (∀ name, canonical (canonical name) = canonical name) ∧ canonical written = canonical hostname ∧
      ∀ network : Net.Network,
        let resolver := new network suffix
        let rewritten := new network writtenSuffix
        (∀ hasControlPlane, rewritten.route hasControlPlane (canonical written) =
          resolver.route hasControlPlane (canonical hostname)) ∧
          Vip.get rewritten.network (canonical written) = Vip.get resolver.network (canonical hostname) ∧
          ∀ (σ : Type) (backends : Backends σ) (state : σ),
            rewritten.resolve backends written state = resolver.resolve backends hostname state ∧
              rewritten.resolve backends.recorded written (state, []) =
                resolver.resolve backends.recorded hostname (state, []) := by
  have hname : canonical written = canonical hostname := canonical_of_spells hhostname hdot hspells
  refine ⟨canonical_canonical, hname, fun network => ?_⟩
  intro resolver rewritten
  have hresolver : rewritten = resolver := new_of_spells hsuffix hsuffixDot hspellsSuffix
  rw [hresolver, hname]
  refine ⟨fun _ => rfl, rfl, fun σ backends state => ⟨?_, ?_⟩⟩
  · exact resolve_congr resolver backends state hname
  · exact resolve_congr resolver backends.recorded (state, []) hname

/-- A hostname and a suffix as somebody may write them. -/
theorem resolve_of_spellings_of_app :
    let written := "\u3000App1.apps.INTERNAL.\n"
    let writtenSuffix := " ..Apps.Internal"
    Spells "app1.apps.internal" written ∧ SpellsSuffix "apps.internal" writtenSuffix ∧
      ∀ (network : Net.Network) (backends : Backends Unit),
        ((new network writtenSuffix).resolve backends written ()).1 =
          ((new network "apps.internal").resolve backends "app1.apps.internal" ()).1 := by
  intro written writtenSuffix
  have hhostname : Trimmed "app1.apps.internal".toList := ⟨by simp; decide, by simp; decide⟩
  have hsuffix : Trimmed "apps.internal".toList := ⟨by simp; decide, by simp; decide⟩
  have hspells : Spells "app1.apps.internal" written := by
    refine ⟨"\u3000", "App1.apps.INTERNAL", ".", "\n", by decide, by decide, by decide, ?_, by decide⟩
    simp only [String.reduceToList]
    decide
  have hspellsSuffix : SpellsSuffix "apps.internal" writtenSuffix := by
    refine ⟨" ", "..", "Apps.Internal", "", "", by decide, by decide, by decide, by simp, ?_, by decide⟩
    simp only [String.reduceToList]
    decide
  refine ⟨hspells, hspellsSuffix, fun network backends => ?_⟩
  have h := resolve_of_spellings hhostname (by simp) hsuffix (by simp) hspells hspellsSuffix
  exact congrArg Prod.fst ((h.2.2 network).2.2 Unit backends ()).1

end OverlayHost.Resolver
