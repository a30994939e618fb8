import SourceGen.Proofs.Buffer.Pool
import Mathlib.Data.List.Induction
import Mathlib.Data.Sum.Basic

/-! Calls of any number of builders and owners of buffers that share a pool, in any order. To the
builders the pool makes no difference: they have what plain lists would have. -/

namespace SourceGen

/-- What can be done with the elements of a builder. -/
inductive Builder.Edit (α : Type) where
  | push (item : α)
  | extend (items : List α)
  | extendAll (items : List α)
  | clear

namespace Builder.Edit

variable {α ι : Type}

def act : Edit α → Builder α → Pool α → Builder α × Pool α
  | push item, builder, pool => builder.push pool item
  | extend items, builder, pool => builder.extend pool items
  | extendAll items, builder, pool => builder.extendAll pool items
  | clear, builder, pool => (builder.clear, pool)

/-- The label of the buffer that the builder has then. -/
def track : Edit α → Ledger → Builder α → Pool α → Nat → Nat × Ledger
  | push _, ledger, builder, pool, label => ledger.reserve builder pool label 1
  | extend items, ledger, builder, pool, label => ledger.extend builder pool label items
  | extendAll items, ledger, builder, pool, label =>
    ledger.reserve builder pool label items.length
  | clear, ledger, _, _, label => (label, ledger)

/-- What the edit comes to for a plain list. -/
def apply : Edit α → List α → List α
  | push item, list => list ++ [item]
  | extend items, list => list ++ items
  | extendAll items, list => list ++ items
  | clear, _ => []

variable {builder : Builder α} {pool : Pool α} (edit : Edit α)

theorem act_spec (h : pool.Clean) (hfits : builder.Fits) :
    (edit.act builder pool).1.buffer.items = edit.apply builder.buffer.items ∧
      (edit.act builder pool).1.Fits ∧ (edit.act builder pool).2.Clean := by
  cases edit with
  | push item => exact push_spec builder h item
  | extend items => exact extend_spec h hfits items
  | extendAll items => exact extendAll_spec builder h items
  | clear => exact ⟨rfl, Nat.zero_le _, h⟩

theorem track_spec [DecidableEq ι] {ledger : Ledger} {held : ι → Option (Nat × Nat)} {holder : ι}
    {label : Nat} (h : ledger.Accounts pool held)
    (hheld : held holder = some (label, builder.buffer.capacity)) :
    (edit.track ledger builder pool label).2.Accounts (edit.act builder pool).2
      (Function.update held holder (some ((edit.track ledger builder pool label).1,
        (edit.act builder pool).1.buffer.capacity))) := by
  cases edit with
  | push item => exact h.reserve hheld 1
  | extend items => exact h.extend hheld items
  | extendAll items => exact h.reserve hheld items.length
  | clear =>
    show ledger.Accounts pool (Function.update held holder (some (label, builder.buffer.capacity)))
    rw [← hheld, Function.update_eq_self]
    exact h

end Builder.Edit

/-- A pool in use: builders and buffers that have been rented from it, with the labels of the
buffers. -/
structure Lending (α : Type) where
  pool : Pool α := {}
  ledger : Ledger := {}
  builders : Nat → Option (Builder α × Nat) := fun _ => none
  buffers : Nat → Option (Buffer α × Nat) := fun _ => none

/-- A call of a pool, of a builder, or of the owner of a buffer. New buffers get as much room as is
settled last. -/
inductive Call (α : Type) where
  | allocate (room : Nat → Nat) (le_room : ∀ least, least ≤ room least)
  | rentIn (slot capacity : Nat)
  | edit (slot : Nat) (edit : Builder.Edit α)
  | drop (slot : Nat)
  | rent (slot least : Nat)
  | fill (slot : Nat) (buffer : Buffer α)
  | giveBack (slot : Nat)

namespace Lending

variable {α : Type}

/-- The labels and the capacities of the buffers that builders hold, on the left, and of the other
buffers that have been rented, on the right. -/
def held (state : Lending α) : Nat ⊕ Nat → Option (Nat × Nat) :=
  Sum.elim (Option.map (fun own => (own.2, own.1.buffer.capacity)) ∘ state.builders)
    (Option.map (fun own => (own.2, own.1.capacity)) ∘ state.buffers)

/-- The elements of all builders. -/
def lists (state : Lending α) : Nat → Option (List α) :=
  Option.map (·.1.buffer.items) ∘ state.builders

/-- A call. Slots are used for one thing at a time, and calls of what is not there do nothing. -/
def step (state : Lending α) : Call α → Lending α
  | .allocate room le_room =>
    { state with pool := { state.pool with room := room, le_room := le_room } }
  | .rentIn slot capacity =>
    match state.builders slot with
    | some _ => state
    | none =>
      let (builder, pool) := Builder.rentIn state.pool capacity
      let (label, ledger) := state.ledger.rent state.pool (max capacity 1)
      { state with
        pool := pool
        ledger := ledger
        builders := Function.update state.builders slot (some (builder, label)) }
  | .edit slot change =>
    match state.builders slot with
    | some (builder, label) =>
      let (changed, pool) := change.act builder state.pool
      let (next, ledger) := change.track state.ledger builder state.pool label
      { state with
        pool := pool
        ledger := ledger
        builders := Function.update state.builders slot (some (changed, next)) }
    | none => state
  | .drop slot =>
    match state.builders slot with
    | some (builder, label) =>
      { state with
        pool := builder.drop state.pool
        ledger := state.ledger.giveBack state.pool builder.buffer label
        builders := Function.update state.builders slot none }
    | none => state
  | .rent slot least =>
    match state.buffers slot with
    | some _ => state
    | none =>
      let (buffer, pool) := state.pool.rent least
      let (label, ledger) := state.ledger.rent state.pool least
      { state with
        pool := pool
        ledger := ledger
        buffers := Function.update state.buffers slot (some (buffer, label)) }
  | .fill slot buffer =>
    match state.buffers slot with
    | some (_, label) =>
      { state with
        ledger := state.ledger.resize label buffer.capacity
        buffers := Function.update state.buffers slot (some (buffer, label)) }
    | none => state
  | .giveBack slot =>
    match state.buffers slot with
    | some (buffer, label) =>
      { state with
        pool := state.pool.giveBack buffer
        ledger := state.ledger.giveBack state.pool buffer label
        buffers := Function.update state.buffers slot none }
    | none => state

/-- Calls in a row, with an empty pool at first. -/
def run (calls : List (Call α)) : Lending α :=
  calls.foldl step {}

end Lending

namespace Call

variable {α : Type}

/-- What a call comes to for plain lists. -/
def apply (call : Call α) (lists : Nat → Option (List α)) : Nat → Option (List α) :=
  match call with
  | rentIn slot _ => Function.update lists slot (some ((lists slot).getD []))
  | edit slot change => Function.update lists slot ((lists slot).map change.apply)
  | drop slot => Function.update lists slot none
  | _ => lists

/-- What has been appended to each list since it was begun or cleared. -/
def written (calls : List (Call α)) : Nat → Option (List α) :=
  calls.foldl (fun lists call => call.apply lists) fun _ => none

end Call

namespace Lending

variable {α : Type} {state : Lending α}

/-- What holds of a pool in use at any time. -/
structure Sound (state : Lending α) : Prop where
  clean : state.pool.Clean
  fits : ∀ slot builder label, state.builders slot = some (builder, label) → builder.Fits
  accounts : state.ledger.Accounts state.pool state.held

section Update

variable (slot : Nat) (pool : Pool α) (ledger : Ledger)

theorem held_builders (next : Option (Builder α × Nat)) :
    held ⟨pool, ledger, Function.update state.builders slot next, state.buffers⟩ =
      Function.update state.held (.inl slot)
        (next.map fun own => (own.2, own.1.buffer.capacity)) := by
  rw [held, held, Function.comp_update, Sum.update_elim_inl]

theorem held_buffers (next : Option (Buffer α × Nat)) :
    held ⟨pool, ledger, state.builders, Function.update state.buffers slot next⟩ =
      Function.update state.held (.inr slot) (next.map fun own => (own.2, own.1.capacity)) := by
  rw [held, held, Function.comp_update, Sum.update_elim_inr]

theorem lists_builders (next : Option (Builder α × Nat)) :
    lists ⟨pool, ledger, Function.update state.builders slot next, state.buffers⟩ =
      Function.update state.lists slot (next.map (·.1.buffer.items)) := by
  rw [lists, lists, Function.comp_update]

end Update

/-- A builder gets another buffer, or ends. -/
theorem Sound.setBuilder (h : state.Sound) (slot : Nat) {next : Option (Builder α × Nat)}
    {pool : Pool α} {ledger : Ledger} (hclean : pool.Clean)
    (hfits : ∀ builder label, next = some (builder, label) → builder.Fits)
    (haccounts : ledger.Accounts pool (Function.update state.held (.inl slot)
      (next.map fun own => (own.2, own.1.buffer.capacity)))) :
    Sound ⟨pool, ledger, Function.update state.builders slot next, state.buffers⟩ := by
  refine ⟨hclean, fun other builder label hbuilder => ?_, ?_⟩
  · change Function.update state.builders slot next other = _ at hbuilder
    rw [Function.update_apply] at hbuilder
    split at hbuilder
    · exact hfits builder label hbuilder
    · exact h.fits other builder label hbuilder
  · rw [held_builders]
    exact haccounts

theorem Sound.setBuffer (h : state.Sound) (slot : Nat) {next : Option (Buffer α × Nat)}
    {pool : Pool α} {ledger : Ledger} (hclean : pool.Clean)
    (haccounts : ledger.Accounts pool
      (Function.update state.held (.inr slot) (next.map fun own => (own.2, own.1.capacity)))) :
    Sound ⟨pool, ledger, state.builders, Function.update state.buffers slot next⟩ := by
  refine ⟨hclean, h.fits, ?_⟩
  rw [held_buffers]
  exact haccounts

theorem lists_eq {slot : Nat} {own : Option (Builder α × Nat)} (h : state.builders slot = own) :
    state.lists slot = own.map (·.1.buffer.items) :=
  congrArg (Option.map fun own : Builder α × Nat => own.1.buffer.items) h

theorem held_builder {slot label : Nat} {builder : Builder α}
    (h : state.builders slot = some (builder, label)) :
    state.held (.inl slot) = some (label, builder.buffer.capacity) :=
  congrArg (Option.map fun own : Builder α × Nat => (own.2, own.1.buffer.capacity)) h

theorem held_buffer {slot label : Nat} {buffer : Buffer α}
    (h : state.buffers slot = some (buffer, label)) :
    state.held (.inr slot) = some (label, buffer.capacity) :=
  congrArg (Option.map fun own : Buffer α × Nat => (own.2, own.1.capacity)) h

/-- A list that gets what it has stays as it is. -/
theorem lists_unchanged {slot : Nat} {list : Option (List α)} (h : state.lists slot = list) :
    state.lists = Function.update state.lists slot list :=
  (Function.update_eq_self_iff.mpr h.symm).symm

/-- A new builder has an empty buffer, which nobody else holds. -/
theorem Sound.rentIn (h : state.Sound) (slot capacity : Nat) :
    (state.step (.rentIn slot capacity)).Sound ∧
      (state.step (.rentIn slot capacity)).lists =
        (Call.rentIn slot capacity).apply state.lists := by
  cases hslot : state.builders slot with
  | some own =>
    have hlist : state.lists slot = some own.1.buffer.items := lists_eq hslot
    simp only [Lending.step, hslot, Call.apply, hlist, Option.getD_some]
    exact ⟨h, lists_unchanged hlist⟩
  | none =>
    have hlist : state.lists slot = none := lists_eq hslot
    obtain ⟨hempty, -, hclean⟩ := h.clean.rent (max capacity 1)
    have haccounts := (h.accounts.rentTo (.inl slot) (max capacity 1)).1
    simp only [Lending.step, hslot, Call.apply, hlist, Option.getD_none]
    refine ⟨h.setBuilder slot hclean ?_ haccounts, ?_⟩
    · rintro builder label ⟨⟩
      show (state.pool.rent (max capacity 1)).1.items.length ≤ _
      rw [hempty]
      exact Nat.zero_le _
    · rw [lists_builders]
      exact congrArg (Function.update state.lists slot) (congrArg some hempty)

/-- An edit changes one list, whatever happens to the buffers. -/
theorem Sound.edit (h : state.Sound) (slot : Nat) (change : Builder.Edit α) :
    (state.step (.edit slot change)).Sound ∧
      (state.step (.edit slot change)).lists = (Call.edit slot change).apply state.lists := by
  cases hslot : state.builders slot with
  | none =>
    have hlist : state.lists slot = none := lists_eq hslot
    simp only [Lending.step, hslot, Call.apply, hlist]
    exact ⟨h, lists_unchanged hlist⟩
  | some own =>
    obtain ⟨builder, label⟩ := own
    have hlist : state.lists slot = some builder.buffer.items := lists_eq hslot
    obtain ⟨hitems, hfits, hclean⟩ := change.act_spec h.clean (h.fits slot builder label hslot)
    have haccounts := change.track_spec h.accounts (held_builder hslot)
    simp only [Lending.step, hslot, Call.apply, hlist]
    refine ⟨h.setBuilder slot hclean ?_ haccounts, ?_⟩
    · rintro _ _ ⟨⟩
      exact hfits
    · rw [lists_builders, Option.map_some, hitems, Option.map_some]

theorem Sound.drop (h : state.Sound) (slot : Nat) :
    (state.step (.drop slot)).Sound ∧
      (state.step (.drop slot)).lists = (Call.drop slot).apply state.lists := by
  cases hslot : state.builders slot with
  | none =>
    have hlist : state.lists slot = none := lists_eq hslot
    simp only [Lending.step, hslot, Call.apply]
    exact ⟨h, lists_unchanged hlist⟩
  | some own =>
    obtain ⟨builder, label⟩ := own
    simp only [Lending.step, hslot, Call.apply]
    refine ⟨h.setBuilder slot (h.clean.giveBack builder.buffer) (by simp)
      (h.accounts.release (held_builder hslot)), ?_⟩
    rw [lists_builders, Option.map_none]

/-- A call keeps the pool in order and does to the elements of the builders what it does to plain
lists. -/
theorem Sound.step (h : state.Sound) (call : Call α) :
    (state.step call).Sound ∧ (state.step call).lists = call.apply state.lists := by
  cases call with
  | allocate room le_room =>
    exact ⟨⟨⟨h.clean.idle, h.clean.few⟩, h.fits,
      ⟨h.accounts.rooms, h.accounts.distinct, h.accounts.made, h.accounts.heldRoom,
        h.accounts.heldMade, h.accounts.apart, h.accounts.single⟩⟩, rfl⟩
  | rentIn slot capacity => exact h.rentIn slot capacity
  | edit slot change => exact h.edit slot change
  | drop slot => exact h.drop slot
  | rent slot least =>
    cases hslot : state.buffers slot with
    | some own =>
      simp only [Lending.step, hslot, Call.apply]
      exact ⟨h, trivial⟩
    | none =>
      obtain ⟨-, -, hclean⟩ := h.clean.rent least
      simp only [Lending.step, hslot, Call.apply]
      exact ⟨h.setBuffer slot hclean (h.accounts.rentTo (.inr slot) least).1, rfl⟩
  | fill slot buffer =>
    cases hslot : state.buffers slot with
    | none =>
      simp only [Lending.step, hslot, Call.apply]
      exact ⟨h, trivial⟩
    | some own =>
      simp only [Lending.step, hslot, Call.apply]
      exact ⟨h.setBuffer slot h.clean (h.accounts.refill (held_buffer hslot) buffer.capacity), rfl⟩
  | giveBack slot =>
    cases hslot : state.buffers slot with
    | none =>
      simp only [Lending.step, hslot, Call.apply]
      exact ⟨h, trivial⟩
    | some own =>
      obtain ⟨buffer, label⟩ := own
      simp only [Lending.step, hslot, Call.apply]
      exact ⟨h.setBuffer slot (h.clean.giveBack buffer) (h.accounts.release (held_buffer hslot)),
        rfl⟩

theorem sound_start : Sound ({} : Lending α) where
  clean := ⟨by simp, Nat.zero_le _⟩
  fits := by simp
  accounts := by
    have hheld (holder : Nat ⊕ Nat) : held ({} : Lending α) holder = none := by
      cases holder <;> rfl
    exact ⟨rfl, .nil, by simp, by simp [hheld], by simp [hheld], by simp [hheld], by simp [hheld]⟩

theorem run_spec (calls : List (Call α)) :
    (run calls).Sound ∧ (run calls).lists = Call.written calls := by
  induction calls using List.reverseRecOn with
  | nil => exact ⟨sound_start, rfl⟩
  | append_singleton calls call ih =>
    obtain ⟨hsound, hlists⟩ := ih
    obtain ⟨hnext, happlied⟩ := hsound.step call
    rw [hlists] at happlied
    rw [run, Call.written, List.foldl_append, List.foldl_append]
    exact ⟨hnext, happlied⟩

/-- After any calls, the builders have what plain lists would have, within the room of their
buffers. What is rented then is empty, has the room asked for, and is held by nobody else. The idle
buffers are empty, have some room but not too much, and are not too many. Nobody holds one of them
or the buffer of somebody else. -/
theorem run_lists (calls : List (Call α)) :
    (run calls).lists = Call.written calls ∧
    (∀ slot builder label, (run calls).builders slot = some (builder, label) → builder.Fits) ∧
    (∀ least, ((run calls).pool.rent least).1.items = [] ∧
      least ≤ ((run calls).pool.rent least).1.capacity ∧
      ∀ holder own, (run calls).held holder = some own →
        ((run calls).ledger.rent (run calls).pool least).1 ≠ own.1) ∧
    (∀ buffer ∈ (run calls).pool.idle,
      buffer.items = [] ∧ 1 ≤ buffer.capacity ∧ buffer.capacity ≤ 1 <<< 20) ∧
    (run calls).pool.idle.length ≤ 32 ∧
    (run calls).ledger.idle.map (run calls).ledger.room =
      (run calls).pool.idle.map (·.capacity) ∧
    (run calls).ledger.idle.Nodup ∧
    ∀ holder own, (run calls).held holder = some own →
      (run calls).ledger.room own.1 = own.2 ∧ own.1 ∉ (run calls).ledger.idle ∧
      ∀ other next, (run calls).held other = some next → own.1 = next.1 → holder = other := by
  obtain ⟨⟨hclean, hfits, haccounts⟩, hlists⟩ := run_spec calls
  refine ⟨hlists, hfits, fun least => ?_, fun buffer hm => ?_, hclean.few, haccounts.rooms,
    haccounts.distinct, fun holder own hheld => ?_⟩
  · obtain ⟨hempty, hroom, -⟩ := hclean.rent least
    exact ⟨hempty, hroom, (haccounts.rent least).2.free⟩
  · obtain ⟨hempty, hroomy, hbounded⟩ := hclean.idle buffer hm
    exact ⟨hempty, hroomy, hbounded⟩
  · exact ⟨haccounts.heldRoom holder own hheld, haccounts.apart holder own hheld,
      fun other next => haccounts.single holder other own next hheld⟩

/-- The first builder outgrows its buffer, which the second one gets while the first one goes on. -/
example :
    let state : Lending Nat := run [.rentIn 0 2, .edit 0 (.extend [1, 2, 3]), .rentIn 1 2,
      .edit 1 (.push 9), .edit 0 (.push 4)]
    state.lists 0 = some [1, 2, 3, 4] ∧ state.lists 1 = some [9] ∧
      state.held (.inl 0) = some (1, 4) ∧ state.held (.inl 1) = some (0, 2) := by
  decide +kernel

end Lending

end SourceGen
