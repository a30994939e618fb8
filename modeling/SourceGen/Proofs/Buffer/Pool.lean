import SourceGen.Buffer.Pool
import Mathlib.Data.List.Nodup
import Mathlib.Data.List.Perm.Basic
import Mathlib.Logic.Function.Basic

/-! What a pool and its builders promise each other. The pool hands out empty buffers with the room
asked for, and takes back what has some room but not too much; builders keep their elements while
they move to larger buffers. Labels tell the buffers apart, and nobody holds one that is idle. -/

namespace SourceGen

namespace Pool

variable {α β γ : Type}

section TakeOut

open scoped List

variable {items : List β} {index : Nat}

theorem takeOut_concat (init : List β) (last : β) (index : Nat) :
    takeOut (init ++ [last]) index =
      if index = init.length then init else init.set index last := by
  rw [takeOut, List.getLast?_concat, List.dropLast_concat, List.length_append,
    List.length_singleton]
  simp only [Nat.add_right_cancel_iff]

/-- What is taken out and what is left are all there was. -/
theorem takeOut_perm (h : index < items.length) :
    items[index] :: takeOut items index ~ items := by
  rcases List.eq_nil_or_concat' items with rfl | ⟨init, last, rfl⟩
  · exact absurd h (Nat.not_lt_zero _)
  rw [takeOut_concat]
  split
  · next hlast =>
    have hindex : (init ++ [last])[index] = last := by simp [hlast]
    rw [hindex]
    exact (List.perm_append_singleton last init).symm
  · next hlast =>
    have hlt : index < init.length := by
      rw [List.length_append, List.length_singleton] at h
      omega
    rw [List.getElem_append_left hlt]
    calc init[index] :: init.set index last
      _ ~ init[index] :: last :: init.eraseIdx index :=
        (List.set_perm_cons_eraseIdx hlt last).cons _
      _ ~ last :: init[index] :: init.eraseIdx index := .swap ..
      _ ~ last :: init := (List.getElem_cons_eraseIdx_perm hlt).cons _
      _ ~ init ++ [last] := (List.perm_append_singleton last init).symm

theorem takeOut_map (f : β → γ) (items : List β) (index : Nat) :
    takeOut (items.map f) index = (takeOut items index).map f := by
  rcases List.eq_nil_or_concat' items with rfl | ⟨init, last, rfl⟩
  · rfl
  rw [List.map_append, List.map_singleton, takeOut_concat, takeOut_concat, List.length_map]
  split
  · rfl
  · rw [List.map_set]

theorem length_takeOut (h : index < items.length) :
    (takeOut items index).length + 1 = items.length :=
  (takeOut_perm h).length_eq

theorem mem_of_mem_takeOut (h : index < items.length) {item : β} (hm : item ∈ takeOut items index) :
    item ∈ items :=
  (takeOut_perm h).subset (List.mem_cons_of_mem _ hm)

end TakeOut

/-- What holds of the buffers that a pool keeps. -/
structure CanIdle (buffer : Buffer α) : Prop where
  empty : buffer.items = []
  roomy : 0 < buffer.capacity
  bounded : buffer.capacity ≤ maxCapacity

/-- The buffers of a pool can be handed out, and are not too many. -/
structure Clean (pool : Pool α) : Prop where
  idle : ∀ buffer ∈ pool.idle, CanIdle buffer
  few : pool.idle.length ≤ maxIdle

variable {pool : Pool α}

/-- A buffer that is rented has been idle, or is new. -/
theorem rent_cases (pool : Pool α) (least : Nat) :
    (∃ (index : Nat) (h : index < pool.idle.length), pool.choice? least = some index ∧
      least ≤ pool.idle[index].capacity ∧
      pool.rent least = (pool.idle[index], { pool with idle := takeOut pool.idle index })) ∨
    pool.choice? least = none ∧ pool.rent least = (⟨[], pool.room least⟩, pool) := by
  cases hchoice : pool.choice? least with
  | none => exact .inr ⟨rfl, by rw [rent, hchoice]⟩
  | some index =>
    obtain ⟨hlt, hroom, -⟩ := List.findIdx?_eq_some_iff_getElem.mp hchoice
    refine .inl ⟨index, hlt, rfl, of_decide_eq_true hroom, ?_⟩
    simp only [rent, hchoice, List.getElem?_eq_getElem hlt, Option.getD_some]

/-- A buffer that is given back is kept, or the pool stays as it is. -/
theorem giveBack_cases (pool : Pool α) (buffer : Buffer α) :
    (0 < buffer.capacity ∧ buffer.capacity ≤ maxCapacity ∧ pool.idle.length < maxIdle ∧
      pool.giveBack buffer = { pool with idle := pool.idle ++ [⟨[], buffer.capacity⟩] }) ∨
    pool.giveBack buffer = pool := by
  unfold giveBack
  split
  · exact .inr rfl
  split
  · exact .inl ⟨by omega, by omega, ‹_›, rfl⟩
  · exact .inr rfl

/-- What a clean pool hands out is empty and has the room asked for. -/
theorem Clean.rent (h : pool.Clean) (least : Nat) :
    (pool.rent least).1.items = [] ∧ least ≤ (pool.rent least).1.capacity ∧
      (pool.rent least).2.Clean := by
  rcases rent_cases pool least with ⟨index, hlt, -, hroom, heq⟩ | ⟨-, heq⟩
  · have hfew : (takeOut pool.idle index).length ≤ maxIdle := by
      have hlength := length_takeOut hlt
      have hle := h.few
      omega
    rw [heq]
    exact ⟨(h.idle _ (List.getElem_mem hlt)).empty, hroom,
      fun buffer hm => h.idle buffer (mem_of_mem_takeOut hlt hm), hfew⟩
  · rw [heq]
    exact ⟨rfl, pool.le_room least, h⟩

/-- Whatever is given back, the pool stays clean. -/
theorem Clean.giveBack (h : pool.Clean) (buffer : Buffer α) : (pool.giveBack buffer).Clean := by
  rcases giveBack_cases pool buffer with ⟨hpos, hle, hfew, heq⟩ | heq
  · rw [heq]
    refine ⟨List.forall_mem_append.mpr ⟨h.idle, List.forall_mem_singleton.mpr ⟨rfl, hpos, hle⟩⟩, ?_⟩
    rw [List.length_append, List.length_singleton]
    omega
  · rwa [heq]

end Pool

theorem doubledTo_ge {capacity least : Nat} (h : 0 < capacity) :
    least ≤ doubledTo capacity least := by
  fun_induction doubledTo capacity least with
  | case1 capacity _ ih => exact ih (by omega)
  | case2 capacity hge => omega

namespace Builder

variable {α : Type} {builder : Builder α} {pool : Pool α}

/-- The elements of a builder are within the room of its buffer. -/
def Fits (builder : Builder α) : Prop :=
  builder.buffer.items.length ≤ builder.buffer.capacity

variable {additional : Nat}

theorem le_capacity_of_outgrown? (h : builder.outgrown? additional = none) :
    builder.buffer.items.length + additional ≤ builder.buffer.capacity := by
  simp only [outgrown?] at h
  split at h
  · assumption
  · cases h

theorem le_of_outgrown? {least : Nat} (h : builder.outgrown? additional = some least) :
    builder.buffer.items.length + additional ≤ least := by
  simp only [outgrown?] at h
  split at h
  · cases h
  · obtain rfl := Option.some.inj h
    exact doubledTo_ge (by omega)

theorem reserve_spec (builder : Builder α) (h : pool.Clean) (additional : Nat) :
    (builder.reserve pool additional).1.buffer.items = builder.buffer.items ∧
      builder.buffer.items.length + additional ≤
        (builder.reserve pool additional).1.buffer.capacity ∧
      (builder.reserve pool additional).2.Clean := by
  unfold reserve
  split
  · next hroom => exact ⟨rfl, le_capacity_of_outgrown? hroom, h⟩
  · next least hgrown =>
    obtain ⟨hempty, hroom, hclean⟩ := h.rent least
    refine ⟨?_, Nat.le_trans (le_of_outgrown? hgrown) hroom, hclean.giveBack _⟩
    show (pool.rent least).1.items ++ builder.buffer.items = builder.buffer.items
    rw [hempty, List.nil_append]

theorem extendAll_spec (builder : Builder α) (h : pool.Clean) (items : List α) :
    (builder.extendAll pool items).1.buffer.items = builder.buffer.items ++ items ∧
      (builder.extendAll pool items).1.Fits ∧ (builder.extendAll pool items).2.Clean := by
  obtain ⟨hitems, hroom, hclean⟩ := reserve_spec builder h items.length
  have happended : (builder.extendAll pool items).1.buffer.items =
      builder.buffer.items ++ items :=
    congrArg (· ++ items) hitems
  refine ⟨happended, ?_, hclean⟩
  rw [Fits, happended, List.length_append]
  exact hroom

theorem push_spec (builder : Builder α) (h : pool.Clean) (item : α) :
    (builder.push pool item).1.buffer.items = builder.buffer.items ++ [item] ∧
      (builder.push pool item).1.Fits ∧ (builder.push pool item).2.Clean :=
  extendAll_spec builder h [item]

theorem extend_cons (builder : Builder α) (pool : Pool α) (item : α) (items : List α) :
    builder.extend pool (item :: items) =
      (builder.push pool item).1.extend (builder.push pool item).2 items :=
  rfl

theorem extend_spec (h : pool.Clean) (hfits : builder.Fits) (items : List α) :
    (builder.extend pool items).1.buffer.items = builder.buffer.items ++ items ∧
      (builder.extend pool items).1.Fits ∧ (builder.extend pool items).2.Clean := by
  induction items generalizing builder pool with
  | nil => exact ⟨(List.append_nil _).symm, hfits, h⟩
  | cons item items ih =>
    obtain ⟨hpushed, hfits, hclean⟩ := push_spec builder h item
    obtain ⟨hitems, hrest⟩ := ih hclean hfits
    refine ⟨?_, hrest⟩
    rw [extend_cons, hitems, hpushed, List.append_assoc, List.singleton_append]

end Builder

/-- Labels that tell buffers apart: those of the idle ones, in their order, how many have been given
out, and the capacity of the buffer that each is for. -/
structure Ledger where
  idle : List Nat := []
  made : Nat := 0
  room : Nat → Nat := fun _ => 0

namespace Ledger

variable {α ι : Type}

/-- The label of the buffer that is rented. A new buffer gets a new one. -/
def rent (ledger : Ledger) (pool : Pool α) (least : Nat) : Nat × Ledger :=
  match pool.choice? least with
  | some index =>
    (ledger.idle[index]?.getD ledger.made,
      { ledger with idle := Pool.takeOut ledger.idle index })
  | none =>
    (ledger.made,
      { ledger with
        made := ledger.made + 1
        room := Function.update ledger.room ledger.made (pool.rent least).1.capacity })

/-- The label of a buffer that is given back becomes that of an idle one if the pool keeps it. -/
def giveBack (ledger : Ledger) (pool : Pool α) (buffer : Buffer α) (label : Nat) : Ledger :=
  if pool.idle.length < (pool.giveBack buffer).idle.length then
    { ledger with idle := ledger.idle ++ [label] }
  else ledger

/-- A label whose buffer gets another capacity from its owner. -/
def resize (ledger : Ledger) (label capacity : Nat) : Ledger :=
  { ledger with room := Function.update ledger.room label capacity }

/-- The label of the buffer that a builder has when there is room for more elements. -/
def reserve (ledger : Ledger) (builder : Builder α) (pool : Pool α) (label additional : Nat) :
    Nat × Ledger :=
  match builder.outgrown? additional with
  | none => (label, ledger)
  | some least =>
    let (grown, rest) := ledger.rent pool least
    (grown, rest.giveBack (pool.rent least).2 builder.buffer label)

/-- The same when elements are appended one at a time. -/
def extend (ledger : Ledger) (builder : Builder α) (pool : Pool α) (label : Nat) :
    List α → Nat × Ledger
  | [] => (label, ledger)
  | item :: items =>
    let (next, rest) := ledger.reserve builder pool label 1
    let (grown, left) := builder.push pool item
    rest.extend grown left next items

/-- Idle buffers have labels of their own, and nobody holds one of them. Holders, who are given with
the label and the capacity of their buffer, do not share labels. -/
structure Accounts (ledger : Ledger) (pool : Pool α) (held : ι → Option (Nat × Nat)) : Prop where
  rooms : ledger.idle.map ledger.room = pool.idle.map (·.capacity)
  distinct : ledger.idle.Nodup
  made : ∀ label ∈ ledger.idle, label < ledger.made
  heldRoom : ∀ holder own, held holder = some own → ledger.room own.1 = own.2
  heldMade : ∀ holder own, held holder = some own → own.1 < ledger.made
  apart : ∀ holder own, held holder = some own → own.1 ∉ ledger.idle
  single : ∀ holder other own next, held holder = some own → held other = some next →
    own.1 = next.1 → holder = other

/-- The label of a buffer that is on its way: it is neither idle nor held. -/
structure Loose (ledger : Ledger) (held : ι → Option (Nat × Nat)) (own : Nat × Nat) : Prop where
  room : ledger.room own.1 = own.2
  made : own.1 < ledger.made
  apart : own.1 ∉ ledger.idle
  free : ∀ holder other, held holder = some other → own.1 ≠ other.1

variable {ledger : Ledger} {pool : Pool α} {held : ι → Option (Nat × Nat)}

theorem Accounts.length_eq (h : ledger.Accounts pool held) :
    ledger.idle.length = pool.idle.length := by
  simpa using congrArg List.length h.rooms

theorem Accounts.rent (h : ledger.Accounts pool held) (least : Nat) :
    (ledger.rent pool least).2.Accounts (pool.rent least).2 held ∧
      (ledger.rent pool least).2.Loose held
        ((ledger.rent pool least).1, (pool.rent least).1.capacity) := by
  rcases Pool.rent_cases pool least with ⟨index, hlt, hchoice, -, heq⟩ | ⟨hchoice, heq⟩
  · have hidle : index < ledger.idle.length := h.length_eq ▸ hlt
    have hledger : ledger.rent pool least =
        (ledger.idle[index], { ledger with idle := Pool.takeOut ledger.idle index }) := by
      simp only [Ledger.rent, hchoice, List.getElem?_eq_getElem hidle, Option.getD_some]
    have hroom : ledger.room ledger.idle[index] = pool.idle[index].capacity := by
      have hrooms := congrArg (·[index]?) h.rooms
      simpa [hidle, hlt] using hrooms
    have hleft {label : Nat} (hm : label ∈ Pool.takeOut ledger.idle index) : label ∈ ledger.idle :=
      Pool.mem_of_mem_takeOut hidle hm
    have hnodup := (Pool.takeOut_perm hidle).nodup_iff.mpr h.distinct
    have hmem : ledger.idle[index] ∈ ledger.idle := List.getElem_mem hidle
    rw [hledger, heq]
    refine ⟨⟨?_, (List.nodup_cons.mp hnodup).2, fun label hm => h.made label (hleft hm),
      h.heldRoom, h.heldMade, fun holder own hheld hm => h.apart holder own hheld (hleft hm),
      h.single⟩, hroom, h.made _ hmem, (List.nodup_cons.mp hnodup).1, ?_⟩
    · rw [← Pool.takeOut_map, h.rooms, Pool.takeOut_map]
    · exact fun holder other hheld hsame => h.apart holder other hheld (hsame ▸ hmem)
  · -- a label that has not been in use
    have hledger : ledger.rent pool least = (ledger.made,
        { ledger with
          made := ledger.made + 1
          room := Function.update ledger.room ledger.made (pool.room least) }) := by
      simp only [Ledger.rent, hchoice, heq]
    have hold {label : Nat} (hlt : label < ledger.made) :
        Function.update ledger.room ledger.made (pool.room least) label = ledger.room label :=
      Function.update_of_ne (Nat.ne_of_lt hlt) ..
    rw [hledger, heq]
    refine ⟨⟨?_, h.distinct, fun label hm => Nat.lt_succ_of_lt (h.made label hm),
      fun holder own hheld => ?_,
      fun holder own hheld => Nat.lt_succ_of_lt (h.heldMade holder own hheld), h.apart,
      h.single⟩, Function.update_self .., Nat.lt_succ_self _, fun hm => ?_,
      fun holder other hheld hsame => ?_⟩
    · rw [← h.rooms]
      exact List.map_congr_left fun label hm => hold (h.made label hm)
    · exact (hold (h.heldMade holder own hheld)).trans (h.heldRoom holder own hheld)
    · exact absurd (h.made _ hm) (Nat.lt_irrefl _)
    · exact absurd (hsame ▸ h.heldMade holder other hheld) (Nat.lt_irrefl _)

theorem Accounts.giveBack (h : ledger.Accounts pool held) {label : Nat} {buffer : Buffer α}
    (hloose : ledger.Loose held (label, buffer.capacity)) :
    (ledger.giveBack pool buffer label).Accounts (pool.giveBack buffer) held := by
  rcases Pool.giveBack_cases pool buffer with ⟨-, -, -, heq⟩ | heq
  · have hlonger : pool.idle.length < (pool.giveBack buffer).idle.length := by
      rw [heq]
      simp
    rw [Ledger.giveBack, if_pos hlonger, heq]
    refine ⟨?_, ?_, ?_, h.heldRoom, h.heldMade, ?_, h.single⟩
    · rw [List.map_append, List.map_append, h.rooms, List.map_singleton, List.map_singleton,
        hloose.room]
    · refine List.nodup_append.mpr ⟨h.distinct, List.nodup_singleton label, ?_⟩
      rintro own hown other hother rfl
      exact hloose.apart (List.mem_singleton.mp hother ▸ hown)
    · exact List.forall_mem_append.mpr ⟨h.made, List.forall_mem_singleton.mpr hloose.made⟩
    · intro holder own hheld hm
      rcases List.mem_append.mp hm with hm | hm
      · exact h.apart holder own hheld hm
      · exact hloose.free holder own hheld (List.mem_singleton.mp hm).symm
  · rwa [Ledger.giveBack, if_neg (by rw [heq]; exact Nat.lt_irrefl _), heq]

theorem Accounts.resize (h : ledger.Accounts pool held) {own : Nat × Nat}
    (hloose : ledger.Loose held own) (capacity : Nat) :
    (ledger.resize own.1 capacity).Accounts pool held ∧
      (ledger.resize own.1 capacity).Loose held (own.1, capacity) := by
  have hkept {label : Nat} (hne : label ≠ own.1) :
      (ledger.resize own.1 capacity).room label = ledger.room label :=
    Function.update_of_ne hne ..
  refine ⟨⟨?_, h.distinct, h.made, fun holder other hheld => ?_, h.heldMade, h.apart, h.single⟩,
    Function.update_self .., hloose.made, hloose.apart, hloose.free⟩
  · rw [← h.rooms]
    exact List.map_congr_left fun label hm => hkept fun hsame => hloose.apart (hsame ▸ hm)
  · exact (hkept (hloose.free holder other hheld).symm).trans (h.heldRoom holder other hheld)

variable [DecidableEq ι]

/-- A holder can take a label that is on its way, or none. The one it has had is on its way then. -/
theorem Accounts.update (h : ledger.Accounts pool held) (holder : ι) (next : Option (Nat × Nat))
    (hnext : ∀ own, next = some own → ledger.Loose held own) :
    ledger.Accounts pool (Function.update held holder next) ∧
      ∀ old, held holder = some old → ledger.Loose (Function.update held holder next) old := by
  have hcases {other : ι} {own : Nat × Nat}
      (hheld : Function.update held holder next other = some own) :
      other = holder ∧ next = some own ∨ other ≠ holder ∧ held other = some own := by
    rw [Function.update_apply] at hheld
    split at hheld
    · exact .inl ⟨‹_›, hheld⟩
    · exact .inr ⟨‹_›, hheld⟩
  -- what holds of labels on their way and of held ones holds of all that are held then
  have hall {P : Nat × Nat → Prop} (hloose : ∀ own, ledger.Loose held own → P own)
      (hold : ∀ other own, held other = some own → P own) (other : ι) (own : Nat × Nat)
      (hheld : Function.update held holder next other = some own) : P own := by
    rcases hcases hheld with ⟨-, hown⟩ | ⟨-, hown⟩
    · exact hloose own (hnext own hown)
    · exact hold other own hown
  refine ⟨⟨h.rooms, h.distinct, h.made, hall (fun _ => Loose.room) h.heldRoom,
    hall (fun _ => Loose.made) h.heldMade, hall (fun _ => Loose.apart) h.apart,
    fun first second own other hfirst hsecond hsame => ?_⟩, fun old hold =>
    ⟨h.heldRoom _ _ hold, h.heldMade _ _ hold, h.apart _ _ hold,
      fun other own hheld hsame => ?_⟩⟩
  · rcases hcases hfirst with ⟨rfl, hown⟩ | ⟨-, hown⟩ <;>
      rcases hcases hsecond with ⟨rfl, hother⟩ | ⟨-, hother⟩
    · rfl
    · exact absurd hsame ((hnext own hown).free second other hother)
    · exact absurd hsame.symm ((hnext other hother).free first own hown)
    · exact h.single first second own other hown hother hsame
  · rcases hcases hheld with ⟨-, hown⟩ | ⟨hne, hown⟩
    · exact (hnext own hown).free holder old hold hsame.symm
    · exact hne (h.single other holder own old hown hold hsame.symm)

/-- A holder can rent a buffer. -/
theorem Accounts.rentTo (h : ledger.Accounts pool held) (holder : ι) (least : Nat) :
    (ledger.rent pool least).2.Accounts (pool.rent least).2 (Function.update held holder
        (some ((ledger.rent pool least).1, (pool.rent least).1.capacity))) ∧
      ∀ old, held holder = some old → (ledger.rent pool least).2.Loose
        (Function.update held holder
          (some ((ledger.rent pool least).1, (pool.rent least).1.capacity))) old := by
  obtain ⟨hrented, hloose⟩ := h.rent least
  refine hrented.update holder _ fun own hown => ?_
  obtain rfl := Option.some.inj hown
  exact hloose

/-- A holder can give its buffer back. -/
theorem Accounts.release (h : ledger.Accounts pool held) {holder : ι} {label : Nat}
    {buffer : Buffer α} (hheld : held holder = some (label, buffer.capacity)) :
    (ledger.giveBack pool buffer label).Accounts (pool.giveBack buffer)
      (Function.update held holder none) := by
  obtain ⟨hleft, hloose⟩ := h.update holder none fun _ hown => nomatch hown
  exact hleft.giveBack (hloose _ hheld)

/-- A holder can change the capacity of its buffer. -/
theorem Accounts.refill (h : ledger.Accounts pool held) {holder : ι} {own : Nat × Nat}
    (hheld : held holder = some own) (capacity : Nat) :
    (ledger.resize own.1 capacity).Accounts pool
      (Function.update held holder (some (own.1, capacity))) := by
  obtain ⟨hleft, hloose⟩ := h.update holder none fun _ hown => nomatch hown
  obtain ⟨hresized, hnew⟩ := hleft.resize (hloose own hheld) capacity
  have htaken := (hresized.update holder (some (own.1, capacity)) fun other hother => by
    obtain rfl := Option.some.inj hother
    exact hnew).1
  rwa [Function.update_idem] at htaken

/-- A builder that grows takes a buffer and then gives its own back. -/
theorem Accounts.reserve (h : ledger.Accounts pool held) {holder : ι} {label : Nat}
    {builder : Builder α} (hheld : held holder = some (label, builder.buffer.capacity))
    (additional : Nat) :
    (ledger.reserve builder pool label additional).2.Accounts (builder.reserve pool additional).2
      (Function.update held holder (some ((ledger.reserve builder pool label additional).1,
        (builder.reserve pool additional).1.buffer.capacity))) := by
  unfold Ledger.reserve Builder.reserve
  cases builder.outgrown? additional with
  | none =>
    rw [← hheld, Function.update_eq_self]
    exact h
  | some least =>
    obtain ⟨hrented, hold⟩ := h.rentTo holder least
    exact hrented.giveBack (hold _ hheld)

theorem Accounts.extend (h : ledger.Accounts pool held) {holder : ι} {label : Nat}
    {builder : Builder α} (hheld : held holder = some (label, builder.buffer.capacity))
    (items : List α) :
    (ledger.extend builder pool label items).2.Accounts (builder.extend pool items).2
      (Function.update held holder (some ((ledger.extend builder pool label items).1,
        (builder.extend pool items).1.buffer.capacity))) := by
  induction items generalizing ledger builder pool label held with
  | nil =>
    rw [Ledger.extend, show builder.extend pool [] = (builder, pool) from rfl, ← hheld,
      Function.update_eq_self]
    exact h
  | cons item items ih =>
    have hnext : Function.update held holder (some ((ledger.reserve builder pool label 1).1,
        (builder.push pool item).1.buffer.capacity)) holder =
          some (_, (builder.push pool item).1.buffer.capacity) :=
      Function.update_self ..
    have hrest := ih (h.reserve hheld 1) hnext
    rw [Function.update_idem] at hrest
    exact hrest

end Ledger

end SourceGen
