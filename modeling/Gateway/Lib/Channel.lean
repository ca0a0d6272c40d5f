/-!
# Channels

Buffered and unbuffered channels that can be closed: a send on a closed channel panics, as
does a second close, and a receive from a closed channel ends once the buffer is empty. A
channel without capacity passes a value only when sender and receiver meet.
-/

/-- What an operation on a channel comes to. -/
inductive Outcome (α : Type)
  | ok (a : α)
  | blocks
  | panics
deriving Repr

/-- What a receive comes to. -/
inductive Received (α β : Type)
  | value (a : α) (rest : β)
  | ended
  | blocks
deriving Repr

/-- A channel. -/
structure Chan (α : Type) where
  capacity : Nat
  buffer : List α
  closed : Bool
deriving Repr

namespace Chan

variable {α : Type}

/-- A new channel. -/
def new (capacity : Nat) : Chan α := ⟨capacity, [], false⟩

/-- A send into the buffer. -/
def send (c : Chan α) (a : α) : Outcome (Chan α) :=
  if c.closed then .panics
  else if c.buffer.length < c.capacity then .ok { c with buffer := c.buffer ++ [a] }
  else .blocks

/-- A send to a receiver that waits: the value passes the buffer by. -/
def handOver (c : Chan α) : Outcome (Chan α) :=
  if c.closed then .panics
  else if c.buffer = [] then .ok c
  else .blocks

/-- A receive that no sender meets. -/
def receive (c : Chan α) : Received α (Chan α) :=
  match c.buffer with
  | a :: buffer => .value a { c with buffer := buffer }
  | [] => if c.closed then .ended else .blocks

/-- `close`. -/
def close (c : Chan α) : Outcome (Chan α) :=
  if c.closed then .panics else .ok { c with closed := true }

theorem send_of_open {c : Chan α} (hopen : c.closed = false)
    (hroom : c.buffer.length < c.capacity) (a : α) :
    c.send a = .ok { c with buffer := c.buffer ++ [a] } := by
  rw [send, if_neg (by simp [hopen]), if_pos hroom]

theorem handOver_of_open {c : Chan α} (hopen : c.closed = false) (hempty : c.buffer = []) :
    c.handOver = .ok c := by
  rw [handOver, if_neg (by simp [hopen]), if_pos hempty]

theorem close_of_open {c : Chan α} (hopen : c.closed = false) :
    c.close = .ok { c with closed := true } := by
  rw [close, if_neg (by simp [hopen])]

theorem receive_cons {c : Chan α} {a : α} {buffer : List α} (h : c.buffer = a :: buffer) :
    c.receive = .value a { c with buffer := buffer } := by
  rw [receive, h]

theorem receive_nil {c : Chan α} (h : c.buffer = []) :
    c.receive = if c.closed then .ended else .blocks := by
  rw [receive, h]

end Chan
