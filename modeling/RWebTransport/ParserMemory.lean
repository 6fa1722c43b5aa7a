import RWebTransport.H3.Varint

/-!
# Parser memory

`parser_memory.rs`: budgets that charge the capacity of every receive buffer,
and the buffers themselves.  An `Arc<ParserMemory>` is an index into `Heap`,
which holds all budgets; a child is created after its parent.  The allocator is
a function of the request's number and size: it refuses, or grants the request
with some excess capacity.
-/

namespace RWebTransport

/-- One budget. -/
structure ParserMemory where
  limit : Nat
  used : Nat
  parent : Option Nat

/-- All budgets, and the allocator behind them. -/
structure Heap where
  nodes : List ParserMemory
  /-- How many allocations were requested so far. -/
  requests : Nat
  /-- The excess capacity granted to a request, or `none` for a refusal. -/
  allocator : Nat → Nat → Option Nat

namespace Heap

/-- `ParserMemory::new` and `ParserMemory::child`. -/
def alloc (h : Heap) (limit : Nat) (parent : Option Nat) : Heap × Nat :=
  ({ h with nodes := h.nodes ++ [⟨limit, 0, parent⟩] }, h.nodes.length)

def setUsed (h : Heap) (i used : Nat) : Heap :=
  { h with nodes := h.nodes.modify i fun m => { m with used := used } }

/-- `ParserMemory::reserve`, climbing to the root; a refusal above rolls this
node back.  A `usize` overflow of the sum would exceed the limit as well. -/
def reserveFrom : Nat → Heap → Nat → Nat → Option Heap
  | 0, _, _, _ => none
  | depth + 1, h, i, bytes =>
      match h.nodes[i]? with
      | none => none
      | some m =>
          if m.used + bytes ≤ m.limit then
            let h' := h.setUsed i (m.used + bytes)
            match m.parent with
            | none => some h'
            | some p => reserveFrom depth h' p bytes
          else none

def reserve (h : Heap) (i bytes : Nat) : Option Heap := reserveFrom (h.nodes.length + 1) h i bytes

/-- `ParserMemory::release`, climbing to the root. -/
def releaseFrom : Nat → Heap → Nat → Nat → Heap
  | 0, h, _, _ => h
  | depth + 1, h, i, bytes =>
      match h.nodes[i]? with
      | none => h
      | some m =>
          let h' := h.setUsed i (m.used - bytes)
          match m.parent with
          | none => h'
          | some p => releaseFrom depth h' p bytes

def release (h : Heap) (i bytes : Nat) : Heap := releaseFrom (h.nodes.length + 1) h i bytes

end Heap

/-- `usize::checked_next_power_of_two`. -/
def checkedNextPowerOfTwo (n : Nat) : Option Nat :=
  if n ≤ 1 then some 1
  else if 2 ^ 63 < n then none
  else some (2 ^ ((n - 1).log2 + 1))

/-- A receive buffer: its bytes and the capacity charged for it. -/
structure ParserBuffer where
  data : Bytes
  capacity : Nat
  /-- The budget it is charged to. -/
  memory : Nat

namespace ParserBuffer

def new (memory : Nat) : ParserBuffer := ⟨[], 0, memory⟩

/-- The replacement allocation of `extendFromSlice`: reserve, allocate, charge
the excess, then free the old allocation. -/
def grow (b : ParserBuffer) (h : Heap) (needed : Nat) : Option ParserBuffer × Heap :=
  match checkedNextPowerOfTwo needed with
  | none => (none, h)
  | some capacity =>
      match h.reserve b.memory capacity with
      | none => (none, h)
      | some h1 =>
          let h2 := { h1 with requests := h1.requests + 1 }
          match h.allocator h.requests capacity with
          | none => (none, h2.release b.memory capacity)
          | some extra =>
              match if extra = 0 then some h2 else h2.reserve b.memory extra with
              | none => (none, h2.release b.memory capacity)
              | some h3 =>
                  (some { b with capacity := capacity + extra }, h3.release b.memory b.capacity)

/-- Appends; on a refusal the buffer stays as it was. -/
def extendFromSlice (b : ParserBuffer) (h : Heap) (bytes : Bytes) : Option ParserBuffer × Heap :=
  let needed := b.data.length + bytes.length
  if b.capacity < needed then
    match b.grow h needed with
    | (some b', h') => (some { b' with data := b.data ++ bytes }, h')
    | (none, h') => (none, h')
  else (some { b with data := b.data ++ bytes }, h)

/-- Frees the buffer's allocation (`clear`, and `Drop`). -/
def clear (b : ParserBuffer) (h : Heap) : ParserBuffer × Heap :=
  (⟨[], 0, b.memory⟩, h.release b.memory b.capacity)

/-- Drops the first `n` bytes; the capacity stays unless nothing is left. -/
def consume (b : ParserBuffer) (h : Heap) (n : Nat) : ParserBuffer × Heap :=
  if n = b.data.length then b.clear h else ({ b with data := b.data.drop n }, h)

/-- A copy of a range, charged to the same budget. -/
def copyRange (b : ParserBuffer) (h : Heap) (start stop : Nat) : Option ParserBuffer × Heap :=
  (new b.memory).extendFromSlice h ((b.data.drop start).take (stop - start))

/-! ## Contents -/

theorem extendFromSlice_data {b : ParserBuffer} {h : Heap} {bytes : Bytes} {b' : ParserBuffer}
    {h' : Heap} (hx : b.extendFromSlice h bytes = (some b', h')) : b'.data = b.data ++ bytes := by
  unfold extendFromSlice at hx
  simp only at hx
  split_ifs at hx with hcap
  · split at hx
    · simp only [Prod.mk.injEq, Option.some.injEq] at hx
      rw [← hx.1]
    · simp at hx
  · simp only [Prod.mk.injEq, Option.some.injEq] at hx
    rw [← hx.1]

theorem copyRange_data {b : ParserBuffer} {h : Heap} {start stop : Nat} {c : ParserBuffer}
    {h' : Heap} (hc : b.copyRange h start stop = (some c, h')) :
    c.data = (b.data.drop start).take (stop - start) := by
  simpa [new] using extendFromSlice_data hc

@[simp] theorem clear_data (b : ParserBuffer) (h : Heap) : (b.clear h).1.data = [] := rfl

@[simp] theorem consume_data (b : ParserBuffer) (h : Heap) (n : Nat) :
    (b.consume h n).1.data = b.data.drop n := by
  unfold consume
  split
  next hn => simp [hn]
  · rfl

end ParserBuffer

end RWebTransport
