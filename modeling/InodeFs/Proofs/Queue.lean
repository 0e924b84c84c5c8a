import InodeFs.Server.Queue

/-!
The connection queue under any number of producers and consumers: every enabled step keeps it
bounded and first-in first-out (`Traffic.Sound.step`), so every run does (`Traffic.Sound.run`).
-/

namespace InodeFs.Server

namespace BoundedQueue

variable {α : Type}

theorem push?_eq_some {q q' : BoundedQueue α} {x : α} :
    q.push? x = some q' ↔ q.len < q.capacity ∧ q' = { q with items := q.items ++ [x] } := by
  unfold push? canPush
  by_cases room : q.len < q.capacity
  · rw [if_pos (decide_eq_true room), Option.some.injEq]
    exact ⟨fun same => ⟨room, same.symm⟩, fun done => done.2.symm⟩
  · rw [if_neg (by simpa using room)]
    exact ⟨(fun never => by cases never), fun done => absurd done.1 room⟩

theorem pop?_eq_some {q q' : BoundedQueue α} {x : α} :
    q.pop? = some (x, q') ↔ ∃ rest, q.items = x :: rest ∧ q' = { q with items := rest } := by
  unfold pop?
  cases front : q.items with
  | nil => simp
  | cons y rest =>
    simp only [Option.some.injEq, Prod.mk.injEq, List.cons.injEq]
    constructor
    · rintro ⟨rfl, rfl⟩
      exact ⟨rest, ⟨rfl, rfl⟩, rfl⟩
    · rintro ⟨r, ⟨rfl, rfl⟩, rfl⟩
      exact ⟨rfl, rfl⟩

end BoundedQueue

/-- What a thread does to the queue: producer `who` pushes an item, or consumer `who` pops one. -/
inductive Action (α : Type) where
  | push (who : Nat) (item : α)
  | pop (who : Nat)

/-- The queue with every item pushed and popped so far, and by whom, in order. -/
structure Traffic (α : Type) where
  queue : BoundedQueue α
  pushed : List (Nat × α)
  popped : List (Nat × α)

namespace Traffic

variable {α : Type}

/-- No traffic yet on a new queue made with capacity `c`. -/
def start (c : Nat) : Traffic α := { queue := BoundedQueue.new c, pushed := [], popped := [] }

/-- One step, when enabled: a push while there is room, a pop while there is an item. -/
def step? (t : Traffic α) : Action α → Option (Traffic α)
  | .push who x => (t.queue.push? x).map fun q =>
      { t with queue := q, pushed := t.pushed ++ [(who, x)] }
  | .pop who => t.queue.pop?.map fun r =>
      { t with queue := r.2, popped := t.popped ++ [(who, r.1)] }

/-- Steps taken one after another, each while it is enabled. -/
def run? (t : Traffic α) : List (Action α) → Option (Traffic α)
  | [] => some t
  | a :: rest => (t.step? a).bind fun t' => t'.run? rest

/-- Everything a step can do. -/
theorem step?_eq_some {t t' : Traffic α} {a : Action α} :
    t.step? a = some t' ↔
      (∃ who x, a = .push who x ∧ t.queue.len < t.queue.capacity ∧
        t' = { t with queue := { t.queue with items := t.queue.items ++ [x] },
                      pushed := t.pushed ++ [(who, x)] }) ∨
      (∃ who x rest, a = .pop who ∧ t.queue.items = x :: rest ∧
        t' = { t with queue := { t.queue with items := rest },
                      popped := t.popped ++ [(who, x)] }) := by
  cases a with
  | push who x =>
    simp only [step?, Option.map_eq_some_iff, BoundedQueue.push?_eq_some]
    constructor
    · rintro ⟨q, ⟨room, rfl⟩, rfl⟩
      exact .inl ⟨who, x, rfl, room, rfl⟩
    · rintro (⟨who', x', same, room, rfl⟩ | ⟨_, _, _, never, _⟩)
      · cases same
        exact ⟨_, ⟨room, rfl⟩, rfl⟩
      · cases never
  | pop who =>
    simp only [step?, Option.map_eq_some_iff]
    constructor
    · rintro ⟨⟨x, q⟩, popped, rfl⟩
      obtain ⟨rest, front, rfl⟩ := BoundedQueue.pop?_eq_some.1 popped
      exact .inr ⟨who, x, rest, rfl, front, rfl⟩
    · rintro (⟨_, _, never, _⟩ | ⟨who', x, rest, same, front, rfl⟩)
      · cases never
      · cases same
        exact ⟨(x, _), BoundedQueue.pop?_eq_some.2 ⟨rest, front, rfl⟩, rfl⟩

theorem push_enabled (t : Traffic α) (who : Nat) (x : α) :
    (t.step? (.push who x)).isSome ↔ t.queue.len < t.queue.capacity := by
  rw [Option.isSome_iff_exists]
  constructor
  · rintro ⟨t', stepped⟩
    obtain ⟨_, _, -, room, -⟩ | ⟨_, _, _, never, _⟩ := step?_eq_some.1 stepped
    · exact room
    · cases never
  · intro room
    exact ⟨_, step?_eq_some.2 (.inl ⟨who, x, rfl, room, rfl⟩)⟩

theorem pop_enabled (t : Traffic α) (who : Nat) :
    (t.step? (.pop who)).isSome ↔ t.queue.items ≠ [] := by
  rw [Option.isSome_iff_exists]
  constructor
  · rintro ⟨t', stepped⟩
    obtain ⟨_, _, never, _⟩ | ⟨_, y, rest, -, front, -⟩ := step?_eq_some.1 stepped
    · cases never
    · rw [front]
      exact List.cons_ne_nil y rest
  · intro held
    obtain ⟨y, rest, front⟩ := List.ne_nil_iff_exists_cons.1 held
    exact ⟨_, step?_eq_some.2 (.inr ⟨who, y, rest, rfl, front, rfl⟩)⟩

/-- At every point of a run the capacity is as made, the queue is within it, and the items popped
then waiting are the items pushed. -/
structure Sound (c : Nat) (t : Traffic α) : Prop where
  capacity : t.queue.capacity = max c 1
  bounded : t.queue.len ≤ t.queue.capacity
  conserved : t.popped.map (·.2) ++ t.queue.items = t.pushed.map (·.2)

theorem Sound.start (c : Nat) : Sound c (start c : Traffic α) where
  capacity := rfl
  bounded := Nat.zero_le _
  conserved := rfl

theorem Sound.step {c : Nat} {t t' : Traffic α} {a : Action α} (sound : Sound c t)
    (stepped : t.step? a = some t') : Sound c t' := by
  obtain ⟨who, x, -, room, rfl⟩ | ⟨who, x, rest, -, front, rfl⟩ := step?_eq_some.1 stepped
  · refine ⟨sound.capacity, ?_, ?_⟩
    · change (t.queue.items ++ [x]).length ≤ t.queue.capacity
      rw [List.length_append, List.length_singleton]
      exact room
    · simp only [List.map_append, List.map_cons, List.map_nil, ← sound.conserved,
        List.append_assoc]
  · refine ⟨sound.capacity, ?_, ?_⟩
    · have within := sound.bounded
      change rest.length ≤ t.queue.capacity
      change t.queue.items.length ≤ t.queue.capacity at within
      rw [front, List.length_cons] at within
      omega
    · simp only [List.map_append, List.map_cons, List.map_nil, ← sound.conserved, front,
        List.append_assoc, List.singleton_append]

/-- Every run from a sound point ends at a sound point. -/
theorem Sound.run {c : Nat} {t t' : Traffic α} {acts : List (Action α)} (sound : Sound c t)
    (ran : t.run? acts = some t') : Sound c t' := by
  induction acts generalizing t with
  | nil =>
    cases ran
    exact sound
  | cons a rest ih =>
    obtain ⟨t₁, stepped, more⟩ := Option.bind_eq_some_iff.1 ran
    exact ih (sound.step stepped) more

/-- On a queue of capacity `c`, pushes and pops are enabled exactly with room and with an item;
after any interleaving the queue holds at most `max c 1` items, and the items popped then
waiting are the items pushed, in order. -/
theorem queue_is_bounded_fifo (c : Nat) (acts : List (Action α)) (t : Traffic α)
    (ran : (start c : Traffic α).run? acts = some t) :
    ((∀ who x, (t.step? (.push who x)).isSome ↔ t.queue.len < max c 1) ∧
      ∀ who, (t.step? (.pop who)).isSome ↔ t.queue.items ≠ []) ∧
    (∀ who x t', t.step? (.push who x) = some t' → t'.queue.items = t.queue.items ++ [x]) ∧
    (∀ who t', t.step? (.pop who) = some t' →
      ∃ x, t.queue.items = x :: t'.queue.items ∧ t'.popped = t.popped ++ [(who, x)]) ∧
    t.queue.len ≤ max c 1 ∧
    t.popped.map (·.2) ++ t.queue.items = t.pushed.map (·.2) := by
  have sound := (Sound.start c).run ran
  refine ⟨⟨fun who x => ?_, fun who => pop_enabled t who⟩, fun who x t' stepped => ?_,
    fun who t' stepped => ?_, sound.capacity ▸ sound.bounded, sound.conserved⟩
  · rw [← sound.capacity]
    exact push_enabled t who x
  · obtain ⟨_, _, same, -, rfl⟩ | ⟨_, _, _, never, _⟩ := step?_eq_some.1 stepped
    · cases same
      rfl
    · cases never
  · obtain ⟨_, _, never, _⟩ | ⟨_, x, rest, same, front, rfl⟩ := step?_eq_some.1 stepped
    · cases never
    · cases same
      exact ⟨x, front, rfl⟩

/-- Two producers fill a queue of capacity two, and a consumer takes the first item. -/
theorem two_producers_one_consumer_fifo :
    (start 2 : Traffic Nat).run? [.push 0 7, .push 1 8, .pop 5] =
        some ⟨⟨[8], 2⟩, [(0, 7), (1, 8)], [(5, 7)]⟩ ∧
      [8].length ≤ max 2 1 ∧ [(5, 7)].map (·.2) ++ [8] = [(0, 7), (1, 8)].map (·.2) := by
  have ran : (start 2 : Traffic Nat).run? [.push 0 7, .push 1 8, .pop 5] =
      some ⟨⟨[8], 2⟩, [(0, 7), (1, 8)], [(5, 7)]⟩ := rfl
  obtain ⟨-, -, -, bounded, conserved⟩ := queue_is_bounded_fifo 2 _ _ ran
  exact ⟨ran, bounded, conserved⟩

end Traffic

end InodeFs.Server
