/-! A pool of buffers, and builders that rent their buffers from it. -/

namespace SourceGen

/-- A buffer with room for `capacity` elements. -/
structure Buffer (α : Type) where
  items : List α := []
  capacity : Nat

/-- The buffers that nobody uses, and the capacity that new ones get for the one asked for. -/
structure Pool (α : Type) where
  idle : List (Buffer α) := []
  room : Nat → Nat := fun least => least
  le_room : ∀ least, least ≤ room least := by exact fun least => Nat.le_refl least

namespace Pool

variable {α β : Type}

/-- The greatest number of buffers that a pool keeps. -/
def maxIdle : Nat := 32

/-- The greatest capacity of a buffer that a pool keeps. -/
def maxCapacity : Nat := 1 <<< 20

/-- The list without the element at a position, whose place the last element takes. -/
def takeOut (items : List β) (index : Nat) : List β :=
  match items.getLast? with
  | some last => if index + 1 = items.length then items.dropLast else items.dropLast.set index last
  | none => []

/-- The position of the first buffer with room for `least` elements. -/
def choice? (pool : Pool α) (least : Nat) : Option Nat :=
  pool.idle.findIdx? (least ≤ ·.capacity)

/-- Rents the first buffer with room for `least` elements, or a new one. -/
def rent (pool : Pool α) (least : Nat) : Buffer α × Pool α :=
  match pool.choice? least with
  | some index =>
    (pool.idle[index]?.getD ⟨[], least⟩, { pool with idle := takeOut pool.idle index })
  | none => (⟨[], pool.room least⟩, pool)

/-- Gives a buffer back. It is emptied and kept if it has some room but not too much, and if the
pool does not hold enough buffers already. -/
def giveBack (pool : Pool α) (buffer : Buffer α) : Pool α :=
  if buffer.capacity = 0 ∨ maxCapacity < buffer.capacity then pool
  else if pool.idle.length < maxIdle then
    { pool with idle := pool.idle ++ [⟨[], buffer.capacity⟩] }
  else pool

end Pool

/-- The first of `capacity`, twice it, four times it and so on that is at least `least`. -/
def doubledTo (capacity least : Nat) : Nat :=
  if capacity < least ∧ 0 < capacity then doubledTo (2 * capacity) least else capacity
termination_by least - capacity

/-- A list under construction in a rented buffer. -/
structure Builder (α : Type) where
  buffer : Buffer α

namespace Builder

variable {α : Type}

/-- A new builder with room for at least one element. -/
def rentIn (pool : Pool α) (capacity : Nat) : Builder α × Pool α :=
  let (buffer, rest) := pool.rent (max capacity 1)
  (⟨buffer⟩, rest)

/-- The capacity of the next buffer, if there is no room for more elements in this one. -/
def outgrown? (builder : Builder α) (additional : Nat) : Option Nat :=
  let buffer := builder.buffer
  let required := buffer.items.length + additional
  if required ≤ buffer.capacity then none
  else some (doubledTo (max buffer.capacity 1) required)

/-- Makes room for more elements; an outgrown buffer goes back to the pool. -/
def reserve (builder : Builder α) (pool : Pool α) (additional : Nat) : Builder α × Pool α :=
  match builder.outgrown? additional with
  | none => (builder, pool)
  | some least =>
    let old := builder.buffer
    let (grown, rest) := pool.rent least
    (⟨{ grown with items := grown.items ++ old.items }⟩, rest.giveBack old)

/-- The builder with more elements in the room it has. -/
def append (builder : Builder α) (items : List α) : Builder α :=
  ⟨{ builder.buffer with items := builder.buffer.items ++ items }⟩

def push (builder : Builder α) (pool : Pool α) (item : α) : Builder α × Pool α :=
  let (roomy, rest) := builder.reserve pool 1
  (roomy.append [item], rest)

/-- Appends elements one at a time. -/
def extend (builder : Builder α) (pool : Pool α) (items : List α) : Builder α × Pool α :=
  items.foldl (fun (builder, pool) item => builder.push pool item) (builder, pool)

/-- Appends elements at once, with room made for `room` more. -/
def extendReserving (builder : Builder α) (pool : Pool α) (room : Nat) (items : List α) :
    Builder α × Pool α :=
  let (roomy, rest) := builder.reserve pool room
  (roomy.append items, rest)

/-- Appends elements at once. -/
def extendAll (builder : Builder α) (pool : Pool α) (items : List α) : Builder α × Pool α :=
  builder.extendReserving pool items.length items

/-- Appends the characters of a text, with room made for its bytes. -/
def pushText (builder : Builder Char) (pool : Pool Char) (text : String) :
    Builder Char × Pool Char :=
  builder.extendReserving pool text.utf8ByteSize text.toList

/-- Drops all elements but keeps the room. -/
def clear (builder : Builder α) : Builder α :=
  ⟨{ builder.buffer with items := [] }⟩

/-- Ends the builder; its buffer goes back to the pool. -/
def drop (builder : Builder α) (pool : Pool α) : Pool α :=
  pool.giveBack builder.buffer

end Builder

end SourceGen
