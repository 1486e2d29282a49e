import Mathlib.Data.List.Basic

/-! First-in first-out queues of bounded capacity. The bound is a field, so no
operation can produce an overfull queue; inserting into a full queue is refused
and leaves the queue as it was. -/

structure BoundedQueue (α : Type) (capacity : Nat) where
  items : List α
  bounded : items.length ≤ capacity

namespace BoundedQueue

variable {α : Type} {capacity : Nat}

def empty : BoundedQueue α capacity := ⟨[], Nat.zero_le _⟩

/-- Whether the element was stored, and the queue afterwards. -/
def enqueue (queue : BoundedQueue α capacity) (item : α) : Bool × BoundedQueue α capacity :=
  if room : queue.items.length < capacity then
    (true, ⟨queue.items ++ [item], by simpa using Nat.succ_le_of_lt room⟩)
  else (false, queue)

theorem enqueue_items (queue : BoundedQueue α capacity) (item : α) :
    (queue.enqueue item).2.items =
      if queue.items.length < capacity then queue.items ++ [item] else queue.items := by
  unfold enqueue
  split <;> rfl

/-- A queue that nothing is taken from holds the first elements offered to it. -/
theorem enqueue_take {queue : BoundedQueue α capacity} {offered : List α}
    (first : queue.items = offered.take capacity) (item : α) :
    (queue.enqueue item).2.items = (offered ++ [item]).take capacity := by
  rw [enqueue_items, first, List.length_take]
  rcases Nat.lt_or_ge offered.length capacity with room | full
  · rw [if_pos (by omega), List.take_of_length_le (Nat.le_of_lt room),
      List.take_of_length_le (by simpa using Nat.succ_le_of_lt room)]
  · rw [if_neg (by omega), List.take_append_of_le_length full]

theorem foldl_enqueue_items {queue : BoundedQueue α capacity} {offered : List α}
    (room : queue.items.length + offered.length ≤ capacity) :
    (offered.foldl (fun queue item => (queue.enqueue item).2) queue).items =
      queue.items ++ offered := by
  induction offered generalizing queue with
  | nil => exact (List.append_nil _).symm
  | cons item rest ih =>
    rw [List.length_cons] at room
    have stored : (queue.enqueue item).2.items = queue.items ++ [item] := by
      rw [enqueue_items, if_pos (by omega)]
    rw [List.foldl_cons, ih (by rw [stored, List.length_append, List.length_singleton]; omega),
      stored, List.append_assoc, List.singleton_append]

end BoundedQueue
