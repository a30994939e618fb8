import SourceGen.Proofs.Compilation.Candidates
import SourceGen.Session.WorkUnit

/-! What generators make of candidates. It does not depend on where these stand, and what is made of
a member belongs to the type that contains it. -/

namespace SourceGen

/-- Types that are declared once are told apart by where they are declared. -/
theorem CompilationInput.hierarchies_nodup {input : CompilationInput}
    (hn : (input.declaredTypes.map TypeSymbol.fullMetadataName).Nodup) :
    (input.declaredTypes.map Hierarchy.ofSymbol).Nodup := by
  refine List.Nodup.of_map Hierarchy.fileHint ?_
  rwa [List.map_map]

theorem ConstructorContext.ofCandidate_ignoresPlace : IgnoresPlace ofCandidate := by
  rintro ⟨file, span, symbol, attributes, containing⟩
  cases symbol <;> rfl

namespace CommandMethod

theorem ofCandidate_ignoresPlace : IgnoresPlace ofCandidate := by
  rintro ⟨file, span, symbol, attributes, containing⟩
  cases symbol <;> rfl

/-- A command belongs to the type that contains its method. -/
theorem ofCandidate_key {candidate : AttributeCandidate} {found : Hierarchy × CommandMethod}
    (h : ofCandidate candidate = some found) :
    candidate.symbol.type? = none ∧
      ∀ type, candidate.containing = some type → found.1 = .ofSymbol type := by
  unfold ofCandidate at h
  split at h
  · next method owner hs hc =>
    obtain ⟨command, -, rfl⟩ := Option.map_eq_some_iff.mp h
    refine ⟨by rw [hs]; rfl, fun type ht => ?_⟩
    rw [Option.some.inj (ht.symm.trans hc)]
  · simp at h

end CommandMethod

namespace FieldAccessorEntry

theorem ofCandidate_ignoresPlace : IgnoresPlace ofCandidate := by
  rintro ⟨file, span, symbol, attributes, containing⟩
  cases symbol <;> rfl

/-- What the properties of a type are grouped by. -/
def keyOf (type : TypeSymbol) : Hierarchy × String :=
  (.ofSymbol type, type.fullName)

/-- An accessor belongs to the type that contains its property. -/
theorem ofCandidate_key {candidate : AttributeCandidate}
    {found : (Hierarchy × String) × FieldAccessorEntry} (h : ofCandidate candidate = some found) :
    candidate.symbol.type? = none ∧
      ∀ type, candidate.containing = some type → found.1 = keyOf type := by
  unfold ofCandidate at h
  split at h
  · next property owner hs hc =>
    obtain ⟨entry, -, rfl⟩ := Option.map_eq_some_iff.mp h
    refine ⟨by rw [hs]; rfl, fun type ht => ?_⟩
    rw [Option.some.inj (ht.symm.trans hc)]
    rfl
  · simp at h

end FieldAccessorEntry

end SourceGen
