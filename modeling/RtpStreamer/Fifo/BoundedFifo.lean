import RtpStreamer.Run.DetSystem

/-!
# Bounded FIFO queues

A queue that holds at most `bound` items and whose operations are atomic. In every legal history of
its operations the items popped, followed by those still queued, are the items pushed.
-/

universe u

/-- The items of a queue, the oldest first. -/
structure BoundedFifo (α : Type u) (bound : Nat) where
  items : List α
  length_le : items.length ≤ bound

namespace BoundedFifo

variable {α : Type u} {bound : Nat}

def empty (α : Type u) (bound : Nat) : BoundedFifo α bound := ⟨[], Nat.zero_le _⟩

/-- Appends an item; returns false, and changes nothing, when the queue is full. -/
def push (queue : BoundedFifo α bound) (item : α) : Bool × BoundedFifo α bound :=
  if h : queue.items.length < bound then
    (true, ⟨queue.items ++ [item], by rw [List.length_append]; exact h⟩)
  else (false, queue)

/-- Takes the oldest item, if there is one. -/
def pop (queue : BoundedFifo α bound) : Option α × BoundedFifo α bound :=
  (queue.items.head?, ⟨queue.items.tail, by
    have := queue.length_le
    rw [List.length_tail]
    omega⟩)

theorem push_of_lt {queue : BoundedFifo α bound} (h : queue.items.length < bound) (item : α) :
    (queue.push item).1 = true ∧ (queue.push item).2.items = queue.items ++ [item] := by
  unfold push
  rw [dif_pos h]
  exact ⟨rfl, rfl⟩

theorem push_of_full {queue : BoundedFifo α bound} (h : queue.items.length = bound) (item : α) :
    queue.push item = (false, queue) := by
  unfold push
  rw [dif_neg (by omega)]

/-- A push appends its item exactly when it returns true. -/
theorem push_items (queue : BoundedFifo α bound) (item : α) :
    (queue.push item).2.items = queue.items ++ if (queue.push item).1 then [item] else [] := by
  by_cases h : queue.items.length < bound
  · obtain ⟨htrue, hitems⟩ := push_of_lt h item
    rw [htrue, hitems]
    rfl
  · have hfull := push_of_full (Nat.le_antisymm queue.length_le (Nat.le_of_not_lt h)) item
    rw [hfull]
    exact (List.append_nil _).symm

/-- A pop removes the item it returns from the front. -/
theorem pop_items (queue : BoundedFifo α bound) :
    queue.items = queue.pop.1.toList ++ queue.pop.2.items := by
  show queue.items = queue.items.head?.toList ++ queue.items.tail
  cases queue.items <;> rfl

theorem pop_eq_none_iff (queue : BoundedFifo α bound) : queue.pop.1 = none ↔ queue.items = [] :=
  List.head?_eq_none_iff

/-! ## Histories -/

inductive Op (α : Type u) where
  | push (item : α)
  | pop

inductive Answer (α : Type u) where
  | pushed (accepted : Bool)
  | popped (item : Option α)

/-- The queue as a system that answers one operation at a time. -/
def system (α : Type u) (bound : Nat) : DetSystem (Op α) (Answer α) where
  State := BoundedFifo α bound
  init := empty α bound
  next
    | queue, .push item => (queue.push item).2
    | queue, .pop => queue.pop.2
  obs
    | queue, .push item => .pushed (queue.push item).1
    | queue, .pop => .popped queue.pop.1

/-- The items whose push returned true, in order. -/
def pushedItems (events : List (Op α × Answer α)) : List α :=
  events.filterMap fun
    | (.push item, .pushed true) => some item
    | _ => none

/-- The items that were popped, in order. -/
def poppedItems (events : List (Op α × Answer α)) : List α :=
  events.filterMap fun
    | (.pop, .popped item) => item
    | _ => none

/-- The queue after a history. -/
def after (bound : Nat) (events : List (Op α × Answer α)) : BoundedFifo α bound :=
  (system α bound).run (events.map Prod.fst)

/-- **FIFO.** What was popped, followed by what is queued, is what was pushed. -/
theorem pushedItems_eq {events : List (Op α × Answer α)} (h : (system α bound).Legal events) :
    pushedItems events = poppedItems events ++ (after bound events).items := by
  induction events using List.reverseRecOn with
  | nil => rfl
  | append_singleton events event ih =>
    obtain ⟨hlegal, hanswer⟩ := DetSystem.legal_snoc.mp h
    have ih := ih hlegal
    obtain ⟨op, answer⟩ := event
    have hafter : after bound (events ++ [(op, answer)]) =
        (system α bound).next (after bound events) op := by
      unfold after
      rw [List.map_append, List.map_singleton, DetSystem.run_snoc]
    unfold pushedItems poppedItems at ih ⊢
    rw [List.filterMap_append, List.filterMap_append, hafter, ih]
    change (system α bound).obs (after bound events) op = answer at hanswer
    generalize after bound events = queue at hanswer ⊢
    cases op with
    | push item =>
      subst hanswer
      show _ = _ ++ (queue.push item).2.items
      rw [push_items, List.append_assoc]
      show _ ++ (_ ++ [(Op.push item, Answer.pushed (queue.push item).1)].filterMap _) = _
      cases (queue.push item).1 <;> simp
    | pop =>
      subst hanswer
      show _ = _ ++ queue.pop.2.items
      rw [queue.pop_items]
      show _ ++ _ ++ [(Op.pop, Answer.popped queue.pop.1)].filterMap _ =
        _ ++ [(Op.pop, Answer.popped queue.pop.1)].filterMap _ ++ _
      cases queue.pop.1 <;> simp

theorem poppedItems_prefix {events : List (Op α × Answer α)} (h : (system α bound).Legal events) :
    poppedItems events <+: pushedItems events := by
  rw [pushedItems_eq h]
  exact List.prefix_append _ _

end BoundedFifo
