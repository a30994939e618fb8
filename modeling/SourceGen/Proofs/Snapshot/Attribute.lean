import SourceGen.Proofs.Collections
import SourceGen.Snapshot.Member

/-! Attributes and their snapshots: an attribute has a snapshot if all its arguments have one, and
what is looked up in the snapshots of several attributes is what the attributes themselves have. The
snapshots of properties have those of their attributes. -/

namespace SourceGen

namespace Constant

theorem ofValues_eq (values : List ConstantValue) :
    ofValues values = collectAll ofValue values := by
  induction values with
  | nil => rfl
  | cons value rest ih =>
    rw [ofValues, collectAll, ih]
    cases ofValue value with
    | error failure => rfl
    | ok constant => cases collectAll ofValue rest <;> rfl

/-- The snapshot of a text is the text, and nothing else is shown as one. -/
theorem string?_of_ofValue {value : ConstantValue} {constant : Constant}
    (h : ofValue value = .ok constant) : constant.string? = value.string? := by
  cases value with
  | array element items =>
    rw [ofValue] at h
    split at h
    · obtain rfl := Except.ok.inj h
      rfl
    · simp at h
  | error => simp [ofValue] at h
  | primitive value =>
    rw [ofValue] at h
    obtain rfl := Except.ok.inj h
    cases value <;> rfl
  | null | enumeration owner value | type symbol =>
    rw [ofValue] at h
    obtain rfl := Except.ok.inj h
    rfl

end Constant

namespace AttributeSnapshot

/-- What the snapshot of an attribute has of it. -/
structure Shows (data : AttributeData) (snapshot : AttributeSnapshot) : Prop where
  metadataName : snapshot.metadataName = data.type.fullMetadataName
  arguments : List.Forall₂ (fun value constant => Constant.ofValue value = .ok constant)
    data.arguments snapshot.arguments

theorem shows_of_ofData {data : AttributeData} {snapshot : AttributeSnapshot}
    (h : ofData data = .ok snapshot) : Shows data snapshot := by
  unfold ofData at h
  split at h
  · next arguments named harguments _ =>
    obtain rfl := Except.ok.inj h
    rw [Constant.ofValues_eq, collectAll_eq_ok_iff] at harguments
    exact ⟨rfl, harguments⟩
  · simp at h
  · simp at h

namespace Shows

variable {data : AttributeData} {snapshot : AttributeSnapshot}

/-- The first argument of an attribute. -/
theorem first (h : Shows data snapshot) :
    Option.Rel (fun value constant => Constant.ofValue value = .ok constant)
      data.arguments.head? snapshot.arguments.head? := by
  have harguments := h.arguments
  generalize data.arguments = values at harguments ⊢
  generalize snapshot.arguments = constants at harguments ⊢
  cases harguments with
  | nil => exact .none
  | cons hfirst _ => exact .some hfirst

theorem string? (h : Shows data snapshot) :
    snapshot.string? 0 = data.arguments.head?.bind ConstantValue.string? := by
  rw [AttributeSnapshot.string?, ← List.head?_eq_getElem?]
  have hfirst := h.first
  generalize data.arguments.head? = value at hfirst ⊢
  generalize snapshot.arguments.head? = constant at hfirst ⊢
  cases hfirst with
  | none => rfl
  | some hfirst => exact Constant.string?_of_ofValue hfirst

end Shows

section All

variable {attributes : List AttributeData} {snapshots : List AttributeSnapshot}

theorem ofAll_eq_ok_iff :
    ofAll attributes = .ok snapshots ↔
      List.Forall₂ (fun data snapshot => ofData data = .ok snapshot) attributes snapshots := by
  have hcollect : ofAll attributes = collectAll ofData attributes := by
    induction attributes with
    | nil => rfl
    | cons data rest ih =>
      rw [ofAll, collectAll, ih]
      cases ofData data <;> rfl
  rw [hcollect, collectAll_eq_ok_iff]

/-- The snapshots of a name are those of the attributes of this name. -/
theorem ofAll_filter (h : ofAll attributes = .ok snapshots) (name : String) :
    ofAll (attributes.filter (·.type.fullMetadataName == name)) =
      .ok (snapshots.filter (·.metadataName == name)) := by
  rw [ofAll_eq_ok_iff] at *
  exact List.rel_filter (fun {data snapshot} hdata => by
    simp only [(shows_of_ofData hdata).metadataName]) h

/-- The texts that attributes start with. -/
theorem filterMap_string? (h : ofAll attributes = .ok snapshots) :
    snapshots.filterMap (·.string? 0) =
      attributes.filterMap fun data => data.arguments.head?.bind ConstantValue.string? := by
  have hshown := ofAll_eq_ok_iff.mp h
  clear h
  induction hshown with
  | nil => rfl
  | cons hfirst _ ih =>
    rw [List.filterMap_cons, List.filterMap_cons, (shows_of_ofData hfirst).string?, ih]

/-- The first argument of the first attribute of a name. -/
theorem find?_first (h : ofAll attributes = .ok snapshots) (name : String) :
    Option.Rel (fun value constant => Constant.ofValue value = .ok constant)
      ((attributes.find? (·.type.fullMetadataName == name)).bind (·.arguments.head?))
      ((find? snapshots name).bind (·.arguments.head?)) := by
  have hnamed := ofAll_eq_ok_iff.mp (ofAll_filter h name)
  rw [find?, ← List.head?_filter, ← List.head?_filter]
  generalize attributes.filter (·.type.fullMetadataName == name) = named at hnamed ⊢
  generalize snapshots.filter (·.metadataName == name) = shown at hnamed ⊢
  cases hnamed with
  | nil => exact .none
  | cons hfirst _ => exact (shows_of_ofData hfirst).first

end All

end AttributeSnapshot

/-- What the snapshot of a property has of it. -/
structure PropertySnapshot.Shows (property : PropertySymbol) (snapshot : PropertySnapshot) :
    Prop where
  name : snapshot.name = property.name
  annotatedTypeName : snapshot.annotatedTypeName = property.type.annotatedName
  attributes : AttributeSnapshot.ofAll property.attributes = .ok snapshot.attributes
  indexer : snapshot.indexer = property.parameters.head?.map IndexerParameter.ofSymbol

theorem PropertySnapshot.shows_of_ofSymbol {property : PropertySymbol}
    {snapshot : PropertySnapshot} (h : ofSymbol property = .ok snapshot) :
    Shows property snapshot := by
  unfold ofSymbol at h
  cases hshown : AttributeSnapshot.ofAll property.attributes with
  | error failure => simp [hshown, Except.map] at h
  | ok shown =>
    rw [hshown] at h
    obtain rfl := Except.ok.inj h
    exact ⟨rfl, rfl, hshown, rfl⟩

end SourceGen
