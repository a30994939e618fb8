import SourceGen.Symbol.Display
import Mathlib.Data.List.Nodup

/-! All interfaces of a type. The search for them works through a stack of interfaces and passes over
those whose full name it has met. What it finds are the interfaces that the type, its base types and
these interfaces list, each of them once by its full name, and none in front of one that it cannot be
reached without. -/

namespace SourceGen

namespace TypeSymbol

/-- The interfaces that a type or one of its base types lists, and those that these list in turn, by
way of interfaces whose full names are allowed. -/
inductive Reaches (type : TypeSymbol) (allowed : String → Prop) : TypeSymbol → Prop where
  | listed {current interface : TypeSymbol} (hc : current ∈ type :: type.bases)
      (hi : interface ∈ current.interfaces) (ha : allowed interface.fullName) :
      Reaches type allowed interface
  | through {interface other : TypeSymbol} (h : Reaches type allowed interface)
      (hi : other ∈ interface.interfaces) (ha : allowed other.fullName) :
      Reaches type allowed other

/-- Whether an interface is listed by the type, a base type or another interface of these. -/
def BuildsOn (type interface : TypeSymbol) : Prop :=
  type.Reaches (fun _ => True) interface

/-- Whether an interface of the type has the name, and only by way of one of another name. -/
def OnlyThrough (type : TypeSymbol) (name other : String) : Prop :=
  (∃ interface, type.BuildsOn interface ∧ interface.fullName = name) ∧
    ¬ ∃ interface, type.Reaches (· ≠ other) interface ∧ interface.fullName = name

/-- Whether the interfaces of the type that have the same full name list interfaces of the same full
names. -/
def ListsAlike (type : TypeSymbol) : Prop :=
  ∀ interface other, type.BuildsOn interface → type.BuildsOn other →
    interface.fullName = other.fullName →
    ∀ listed ∈ interface.interfaces, ∃ same ∈ other.interfaces, same.fullName = listed.fullName

/-- The full names of types. -/
def names (types : List TypeSymbol) : List String :=
  types.map fullName

theorem mem_names {types : List TypeSymbol} {name : String} :
    name ∈ names types ↔ ∃ type ∈ types, type.fullName = name :=
  List.mem_map

theorem names_append (types others : List TypeSymbol) :
    names (types ++ others) = names types ++ names others :=
  List.map_append

namespace Reaches

variable {type interface : TypeSymbol} {allowed more : String → Prop}

theorem mono (h : type.Reaches allowed interface) (hmore : ∀ name, allowed name → more name) :
    type.Reaches more interface := by
  induction h with
  | listed hc hi ha => exact .listed hc hi (hmore _ ha)
  | through _ hi ha ih => exact .through ih hi (hmore _ ha)

theorem isAllowed (h : type.Reaches allowed interface) : allowed interface.fullName := by
  cases h with
  | listed _ _ ha => exact ha
  | through _ _ ha => exact ha

theorem buildsOn (h : type.Reaches allowed interface) : type.BuildsOn interface :=
  h.mono fun _ _ => trivial

end Reaches

/-- The search through a stack of interfaces, from those seen before to those seen at its end. What
an interface lists is put on top of the stack when it is seen. -/
inductive Search : List TypeSymbol → List TypeSymbol → List TypeSymbol → Prop where
  | done (seen : List TypeSymbol) : Search [] seen seen
  | known {top : TypeSymbol} {stack seen found : List TypeSymbol}
      (hname : top.fullName ∈ names seen) (h : Search stack seen found) :
      Search (top :: stack) seen found
  | added {top : TypeSymbol} {stack seen found : List TypeSymbol}
      (hname : top.fullName ∉ names seen)
      (h : Search (top.interfaces ++ stack) (seen ++ [top]) found) :
      Search (top :: stack) seen found

section Stack

private theorem visit_eq (seen : List TypeSymbol) (type : TypeSymbol) :
    visit seen type =
      if type.fullName ∈ names seen then seen else visitAll (seen ++ [type]) type.interfaces := by
  obtain ⟨info, containing, arguments, base, interfaces, attributes, members, element⟩ := type
  rw [visit]
  simp only [names, List.mem_map, List.any_eq_true, beq_iff_eq]

mutual

private theorem search_visit :
    (type : TypeSymbol) → (seen stack found : List TypeSymbol) →
      Search stack (visit seen type) found → Search (type :: stack) seen found
  | ⟨info, containing, arguments, base, interfaces, attributes, members, element⟩, seen, stack,
      found, h => by
    rw [visit_eq] at h
    split at h
    · next hname => exact .known hname h
    · next hname => exact .added hname (search_visitAll interfaces _ stack found h)

private theorem search_visitAll :
    (types : List TypeSymbol) → (seen stack found : List TypeSymbol) →
      Search stack (visitAll seen types) found → Search (types ++ stack) seen found
  | [], _, _, _, h => h
  | type :: types, seen, stack, found, h =>
    search_visit type seen (types ++ stack) found (search_visitAll types _ stack found h)

end

/-- What is searched first for the interfaces of a type. -/
def searchStack (type : TypeSymbol) : List TypeSymbol :=
  (type :: type.bases).flatMap fun current => current.interfaces.reverse

theorem search_allInterfaces (type : TypeSymbol) :
    Search type.searchStack [] type.allInterfaces := by
  have h := search_visitAll type.searchStack [] [] type.allInterfaces (.done _)
  rwa [List.append_nil] at h

theorem mem_searchStack {type interface : TypeSymbol} :
    interface ∈ type.searchStack ↔
      ∃ current ∈ type :: type.bases, interface ∈ current.interfaces := by
  simp [searchStack]

end Stack

namespace Search

variable {stack seen found : List TypeSymbol}

theorem seen_prefix (h : Search stack seen found) : seen <+: found := by
  induction h with
  | done seen => exact List.prefix_rfl
  | known _ _ ih => exact ih
  | added _ _ ih => exact (List.prefix_append _ _).trans ih

theorem mem_of_seen (h : Search stack seen found) {name : String} (hm : name ∈ names seen) :
    name ∈ names found := by
  obtain ⟨type, ht, rfl⟩ := mem_names.mp hm
  exact mem_names.mpr ⟨type, h.seen_prefix.subset ht, rfl⟩

/-- No full name is found twice. -/
theorem names_nodup (h : Search stack seen found) (hs : (names seen).Nodup) :
    (names found).Nodup := by
  induction h with
  | done seen => exact hs
  | known _ _ ih => exact ih hs
  | added hname _ ih =>
    exact ih (by simpa [names] using hs.concat hname)

/-- What is on the stack is found, up to its full name. -/
theorem mem_of_stack (h : Search stack seen found) :
    ∀ type ∈ stack, type.fullName ∈ names found := by
  induction h with
  | done seen => simp
  | known hname h ih =>
    exact List.forall_mem_cons.mpr ⟨h.mem_of_seen hname, ih⟩
  | @added top stack seen found hname h ih =>
    refine List.forall_mem_cons.mpr ⟨h.mem_of_seen ?_, fun type hm => ih type (by simp [hm])⟩
    simp [names]

/-- What an interface lists is found with it. -/
theorem lists_found (h : Search stack seen found) :
    ∀ type ∈ found, type ∈ seen ∨ ∀ listed ∈ type.interfaces, listed.fullName ∈ names found := by
  induction h with
  | done seen => exact fun type hm => .inl hm
  | known _ _ ih => exact ih
  | @added top stack seen found _ h ih =>
    intro type hm
    rcases ih type hm with hseen | hlisted
    · rcases List.mem_append.mp hseen with hseen | htop
      · exact .inl hseen
      · obtain rfl := List.mem_singleton.mp htop
        exact .inr fun listed hl => h.mem_of_stack listed (by simp [hl])
    · exact .inr hlisted

end Search

/-- Whether each of some interfaces is reached by way of those in front of it. -/
def ReachedInOrder (type : TypeSymbol) (seen : List TypeSymbol) : Prop :=
  ∀ front interface back, seen = front ++ interface :: back →
    type.Reaches (· ∈ names (front ++ [interface])) interface

/-- Whether an interface is listed by the type or a base type, or by one of some interfaces. -/
def IsListedBy (type : TypeSymbol) (seen : List TypeSymbol) (interface : TypeSymbol) : Prop :=
  interface ∈ type.searchStack ∨ ∃ current ∈ seen, interface ∈ current.interfaces

section Order

variable {type : TypeSymbol} {stack seen found : List TypeSymbol}

private theorem reachedInOrder_concat {interface : TypeSymbol} (h : type.ReachedInOrder seen)
    (hi : type.IsListedBy seen interface) : type.ReachedInOrder (seen ++ [interface]) := by
  intro front other back hseen
  rcases List.eq_nil_or_concat back with rfl | ⟨back, last, rfl⟩
  · obtain ⟨rfl, hlast⟩ := List.append_inj' hseen rfl
    obtain rfl : interface = other := List.singleton_inj.mp hlast
    have hname : interface.fullName ∈ names (seen ++ [interface]) := by
      simp [names]
    rcases hi with hstack | ⟨current, hm, hlisted⟩
    · obtain ⟨current, hc, hlisted⟩ := mem_searchStack.mp hstack
      exact .listed hc hlisted hname
    · obtain ⟨before, behind, rfl⟩ := List.append_of_mem hm
      refine .through ((h before current behind rfl).mono fun name hn => ?_) hlisted hname
      obtain ⟨known, hk, rfl⟩ := mem_names.mp hn
      refine mem_names.mpr ⟨known, ?_, rfl⟩
      rcases List.mem_append.mp hk with hk | hk
      · simp [hk]
      · simp [List.mem_singleton.mp hk]
  · rw [List.concat_eq_append, ← List.cons_append, ← List.append_assoc] at hseen
    exact h front other back (List.append_inj' hseen rfl).1

theorem Search.reachedInOrder (h : Search stack seen found) (hs : type.ReachedInOrder seen)
    (hstack : ∀ interface ∈ stack, type.IsListedBy seen interface) :
    type.ReachedInOrder found := by
  induction h with
  | done seen => exact hs
  | known _ _ ih => exact ih hs fun interface hm => hstack interface (by simp [hm])
  | @added top stack seen found _ _ ih =>
    obtain ⟨htop, hrest⟩ := List.forall_mem_cons.mp hstack
    refine ih (reachedInOrder_concat hs htop) fun interface hm => ?_
    rcases List.mem_append.mp hm with hlisted | hm
    · exact .inr ⟨top, by simp, hlisted⟩
    · rcases hrest interface hm with hfirst | ⟨current, hc, hlisted⟩
      · exact .inl hfirst
      · exact .inr ⟨current, by simp [hc], hlisted⟩

end Order

section All

variable {type : TypeSymbol}

theorem allInterfaces_reachedInOrder (type : TypeSymbol) :
    type.ReachedInOrder type.allInterfaces :=
  type.search_allInterfaces.reachedInOrder (by simp [ReachedInOrder]) fun _ hm => .inl hm

theorem buildsOn_of_mem {interface : TypeSymbol} (h : interface ∈ type.allInterfaces) :
    type.BuildsOn interface := by
  obtain ⟨front, back, hall⟩ := List.append_of_mem h
  exact (type.allInterfaces_reachedInOrder front interface back hall).buildsOn

theorem mem_names_of_buildsOn (hlists : type.ListsAlike) {interface : TypeSymbol}
    (h : type.BuildsOn interface) : interface.fullName ∈ names type.allInterfaces := by
  have hsearch := type.search_allInterfaces
  induction h with
  | listed hc hi _ => exact hsearch.mem_of_stack _ (mem_searchStack.mpr ⟨_, hc, hi⟩)
  | @through interface other h hi _ ih =>
    -- what is found under the name lists an interface of the same name
    obtain ⟨known, hm, hname⟩ := mem_names.mp ih
    obtain ⟨same, hs, hsame⟩ := hlists interface known h (buildsOn_of_mem hm) hname.symm other hi
    rcases hsearch.lists_found known hm with hnone | hfound
    · cases hnone
    · exact hsame ▸ hfound same hs

/-- Whether a text comes before another one in a list. -/
def Precedes (first second : String) (texts : List String) : Prop :=
  ∃ front between back, texts = front ++ first :: between ++ second :: back

/-- An interface comes before what is reached only through it. -/
theorem precedes_of_onlyThrough (hlists : type.ListsAlike) {name other : String}
    (h : type.OnlyThrough name other) (hne : name ≠ other) :
    Precedes other name (names type.allInterfaces) := by
  obtain ⟨⟨interface, hbuilds, rfl⟩, honly⟩ := h
  obtain ⟨known, hm, hname⟩ := mem_names.mp (mem_names_of_buildsOn hlists hbuilds)
  obtain ⟨front, back, hall⟩ := List.append_of_mem hm
  have hfront : other ∈ names front := by
    by_contra hfront
    refine honly ⟨known, ?_, hname⟩
    refine (type.allInterfaces_reachedInOrder front known back hall).mono fun text ht => ?_
    rw [names_append] at ht
    rcases List.mem_append.mp ht with ht | ht
    · exact ne_of_mem_of_not_mem ht hfront
    · obtain rfl := List.mem_singleton.mp ht
      exact hname ▸ hne
  obtain ⟨first, between, hsplit⟩ := List.append_of_mem hfront
  refine ⟨first, between, names back, ?_⟩
  rw [hall, names_append, hsplit, ← hname]
  rfl

theorem implements_iff {name : String} :
    type.implements name = true ↔
      ∃ interface ∈ type.allInterfaces, interface.fullMetadataName = name := by
  simp [implements]

/-- If interfaces of the same full name list the same interfaces, all interfaces of a type are those
that it builds on, each once by its full name, and none comes before one that it is reached only
through. A metadata name is one of theirs exactly if an interface that the type builds on has it, if
the full name of that interface is not that of one with another metadata name. -/
theorem allInterfaces_reachable (hlists : type.ListsAlike) :
    (∀ interface ∈ type.allInterfaces, type.BuildsOn interface) ∧
      (∀ interface, type.BuildsOn interface →
        (names type.allInterfaces).count interface.fullName = 1) ∧
      (∀ current ∈ type :: type.bases, ∀ interface ∈ current.interfaces, ∀ name,
        type.OnlyThrough name interface.fullName → name ≠ interface.fullName →
          Precedes interface.fullName name (names type.allInterfaces)) ∧
      ∀ name,
        (type.implements name = true →
          ∃ interface, type.BuildsOn interface ∧ interface.fullMetadataName = name) ∧
        ((∀ interface other, type.BuildsOn interface → type.BuildsOn other →
            interface.fullName = other.fullName → interface.fullMetadataName = name →
              other.fullMetadataName = name) →
          (type.implements name = true ↔
            ∃ interface, type.BuildsOn interface ∧ interface.fullMetadataName = name)) := by
  have hsound (name : String) (h : type.implements name = true) :
      ∃ interface, type.BuildsOn interface ∧ interface.fullMetadataName = name := by
    obtain ⟨interface, hm, hname⟩ := implements_iff.mp h
    exact ⟨interface, buildsOn_of_mem hm, hname⟩
  refine ⟨fun _ => buildsOn_of_mem, fun interface h => ?_, fun _ _ _ _ _ h hne =>
    precedes_of_onlyThrough hlists h hne, fun name => ⟨hsound name, fun hnames =>
      ⟨hsound name, ?_⟩⟩⟩
  · exact List.count_eq_one_of_mem
      (type.search_allInterfaces.names_nodup (by simp [names])) (mem_names_of_buildsOn hlists h)
  · rintro ⟨interface, hbuilds, hname⟩
    obtain ⟨known, hm, hknown⟩ := mem_names.mp (mem_names_of_buildsOn hlists hbuilds)
    exact implements_iff.mpr
      ⟨known, hm, hnames interface known hbuilds (buildsOn_of_mem hm) hknown.symm hname⟩

end All

section Shared

private def disposable : TypeSymbol :=
  .named .interfaceType "System" "IDisposable"

private def service : TypeSymbol :=
  { TypeSymbol.named .interfaceType "App" "IService" with interfaces := [disposable] }

/-- A class that lists nothing itself, whose base type lists a service that is disposable. -/
private def worker : TypeSymbol :=
  { TypeSymbol.named .classType "App" "Worker" with
    base := some { TypeSymbol.named .classType "App" "Base" with interfaces := [service] } }

private theorem listed_worker {current interface : TypeSymbol} (hc : current ∈ worker :: worker.bases)
    (hi : interface ∈ current.interfaces) : interface = service := by
  have hinterfaces : ∀ current ∈ worker :: worker.bases,
      ∀ interface ∈ current.interfaces, interface = service := by
    simp [worker, bases, named, ofInfo]
  exact hinterfaces current hc interface hi

private theorem buildsOn_worker {interface : TypeSymbol} (h : worker.BuildsOn interface) :
    interface = service ∨ interface = disposable := by
  induction h with
  | listed hc hi _ => exact .inl (listed_worker hc hi)
  | through _ hi _ ih =>
    rcases ih with rfl | rfl
    · exact .inr (List.mem_singleton.mp hi)
    · cases hi

/-- A class that is disposable by way of a service of its base type. -/
theorem allInterfaces_reachable_worker :
    worker.ListsAlike ∧ (names worker.allInterfaces).count "global::System.IDisposable" = 1 ∧
      Precedes "global::App.IService" "global::System.IDisposable" (names worker.allInterfaces) ∧
      worker.implements "System.IDisposable" = true := by
  have hnames : service.fullName ≠ disposable.fullName := by decide
  have hsame {interface other : TypeSymbol} (hi : worker.BuildsOn interface)
      (ho : worker.BuildsOn other) (hname : interface.fullName = other.fullName) :
      interface = other := by
    rcases buildsOn_worker hi with rfl | rfl <;> rcases buildsOn_worker ho with rfl | rfl
    · rfl
    · exact absurd hname hnames
    · exact absurd hname.symm hnames
    · rfl
  have hlists : worker.ListsAlike := by
    intro interface other hi ho hname listed hl
    obtain rfl := hsame hi ho hname
    exact ⟨listed, hl, rfl⟩
  have hservice : service ∈ (worker :: worker.bases).flatMap (·.interfaces) := by
    simp [worker, bases, named, ofInfo]
  obtain ⟨current, hc, hi⟩ := List.mem_flatMap.mp hservice
  have hdisposable : worker.BuildsOn disposable :=
    .through (.listed hc hi trivial) (List.mem_singleton_self _) trivial
  obtain ⟨-, honce, horder, hmetadata⟩ := allInterfaces_reachable hlists
  have honly : worker.OnlyThrough disposable.fullName service.fullName := by
    refine ⟨⟨disposable, hdisposable, rfl⟩, ?_⟩
    rintro ⟨interface, hreaches, hname⟩
    cases hreaches with
    | listed hc hi ha => exact ha (congrArg fullName (listed_worker hc hi))
    | through h hi _ =>
      rcases buildsOn_worker h.buildsOn with rfl | rfl
      · exact h.isAllowed rfl
      · cases hi
  refine ⟨hlists, honce disposable hdisposable,
    horder current hc service hi _ honly hnames.symm, ?_⟩
  refine ((hmetadata _).2 ?_).mpr ⟨disposable, hdisposable, rfl⟩
  intro interface other hi ho hname hmeta
  obtain rfl := hsame hi ho hname
  exact hmeta

end Shared

section Homonyms

/-- The interface `B` inside of the class `A`, and that of the namespace `A`. -/
private def nested : TypeSymbol :=
  (TypeSymbol.named .interfaceType "" "B").nestIn (.named .classType "" "A")

private def homonym : TypeSymbol :=
  .named .interfaceType "A" "B"

private def both : TypeSymbol :=
  { TypeSymbol.named .classType "App" "Both" with interfaces := [nested, homonym] }

/-- Of two interfaces of the same full name one only is found. -/
theorem implements_homonym :
    ¬ ∀ type : TypeSymbol,
      (∀ first second, first ∈ type :: type.bases ∨ type.BuildsOn first →
        second ∈ type :: type.bases ∨ type.BuildsOn second →
        first.fullName = second.fullName → first.interfaces = second.interfaces) →
      ∀ name, type.implements name = true ↔
        ∃ interface, type.BuildsOn interface ∧ interface.fullMetadataName = name := by
  intro h
  have hbuilds {interface : TypeSymbol} (hi : both.BuildsOn interface) :
      interface = nested ∨ interface = homonym := by
    induction hi with
    | @listed current interface hc hi _ =>
      obtain rfl : current = both := by simpa [both, bases, named, ofInfo] using hc
      simpa [both] using hi
    | through _ hi _ ih => rcases ih with rfl | rfl <;> cases hi
  have hgraph {type : TypeSymbol} (ht : type ∈ both :: both.bases ∨ both.BuildsOn type) :
      type = both ∨ type.fullName = "global::A.B" ∧ type.interfaces = [] := by
    rcases ht with ht | ht
    · exact .inl (by simpa [both, bases, named, ofInfo] using ht)
    · rcases hbuilds ht with rfl | rfl
      · exact .inr ⟨by decide, rfl⟩
      · exact .inr ⟨by decide, rfl⟩
  have hboth : both.fullName ≠ "global::A.B" := by decide
  have hiff := (h both ?_ "A+B").mpr ⟨nested, ?_, by decide⟩
  · exact absurd hiff (by decide)
  · intro first second hfirst hsecond hname
    rcases hgraph hfirst with rfl | ⟨hf, hfi⟩ <;> rcases hgraph hsecond with rfl | ⟨hs, hsi⟩
    · rfl
    · exact absurd (hname.trans hs) hboth
    · exact absurd (hname.symm.trans hf) hboth
    · rw [hfi, hsi]
  · exact .listed List.mem_cons_self (by simp [both]) trivial

end Homonyms

end TypeSymbol

end SourceGen
