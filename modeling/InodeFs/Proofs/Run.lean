import InodeFs.Engine.Monad

/-!
`Ends x s ok err`, the weakest precondition of an engine computation for a pair of
postconditions. It distributes over the monad's operations, so a proof about an engine call
follows the call's own text, one bind at a time.
-/

namespace InodeFs

namespace FsM

variable {δ : Type} {α β : Type}

/-- A run of `x` from `s` ends in `ok` of its value and final session, or in `err` of its
fault and final session. -/
def Ends (x : FsM δ α) (s : Session δ) (ok : α → Session δ → Prop)
    (err : Fault → Session δ → Prop) : Prop :=
  match x.run s with
  | .ok a t => ok a t
  | .error e t => err e t

section Calculus

variable {x : FsM δ α} {s : Session δ} {ok : α → Session δ → Prop}
  {err : Fault → Session δ → Prop}

theorem ends_run_ok {a : α} {t : Session δ} (run : x.run s = .ok a t) :
    Ends x s ok err ↔ ok a t := by
  simp only [Ends, run]

theorem ends_run_error {e : Fault} {t : Session δ} (run : x.run s = .error e t) :
    Ends x s ok err ↔ err e t := by
  simp only [Ends, run]

theorem ends_self (x : FsM δ α) (s : Session δ) :
    Ends x s (fun a t => x.run s = .ok a t) (fun e t => x.run s = .error e t) := by
  unfold Ends
  split <;> assumption

/-- A run that cannot stop succeeds, in `ok`. -/
theorem exists_run_ok (h : Ends x s ok fun _ _ => False) : ∃ a t, x.run s = .ok a t ∧ ok a t := by
  unfold Ends at h
  split at h
  · next a t run => exact ⟨a, t, run, h⟩
  · exact h.elim

theorem run_bind_of_ok {f : α → FsM δ β} {a : α} {t : Session δ} (run : x.run s = .ok a t) :
    (x >>= f).run s = (f a).run t := by
  change EStateM.bind x f s = _
  simp only [EStateM.bind]
  rw [show x s = .ok a t from run]
  rfl

theorem run_bind_eq_ok {f : α → FsM δ β} {b : β} {u : Session δ} (run : (x >>= f).run s = .ok b u) :
    ∃ a t, x.run s = .ok a t ∧ (f a).run t = .ok b u := by
  change EStateM.bind x f s = _ at run
  simp only [EStateM.bind] at run
  split at run
  · next a t first => exact ⟨a, t, first, run⟩
  · cases run

@[simp] theorem ends_pure (a : α) : Ends (pure a : FsM δ α) s ok err ↔ ok a s := Iff.rfl

@[simp] theorem ends_bind (f : α → FsM δ β) {ok : β → Session δ → Prop} :
    Ends (x >>= f) s ok err ↔ Ends x s (fun a t => Ends (f a) t ok err) err := by
  change (match EStateM.bind x f s with | .ok a t => ok a t | .error e t => err e t) ↔ _
  simp only [EStateM.bind, Ends, EStateM.run]
  cases x s <;> rfl

@[simp] theorem ends_map (f : α → β) {ok : β → Session δ → Prop} :
    Ends (f <$> x) s ok err ↔ Ends x s (fun a t => ok (f a) t) err := by
  change (match EStateM.map f x s with | .ok a t => ok a t | .error e t => err e t) ↔ _
  simp only [EStateM.map, Ends, EStateM.run]
  cases x s <;> rfl

@[simp] theorem ends_throw (e : Fault) : Ends (throw e : FsM δ α) s ok err ↔ err e s := Iff.rfl

@[simp] theorem ends_get {ok : Session δ → Session δ → Prop} :
    Ends (get : FsM δ (Session δ)) s ok err ↔ ok s s := Iff.rfl

@[simp] theorem ends_modify (f : Session δ → Session δ) {ok : Unit → Session δ → Prop} :
    Ends (modify f : FsM δ Unit) s ok err ↔ ok () (f s) := Iff.rfl

@[simp] theorem ends_ite (c : Prop) [Decidable c] (y z : FsM δ α) :
    Ends (if c then y else z) s ok err ↔ if c then Ends y s ok err else Ends z s ok err := by
  split <;> rfl

theorem Ends.mono {ok' : α → Session δ → Prop} {err' : Fault → Session δ → Prop}
    (h : Ends x s ok err) (hok : ∀ a t, ok a t → ok' a t) (herr : ∀ e t, err e t → err' e t) :
    Ends x s ok' err' := by
  unfold Ends at *
  split at h <;> simp_all

/-- Run `f` after `x`, knowing of `x` only a specification `P`, `E` of its outcomes. -/
theorem Ends.seq {P : α → Session δ → Prop} {E : Fault → Session δ → Prop}
    {f : α → FsM δ β} {ok : β → Session δ → Prop}
    (h : Ends x s P E) (next : ∀ a t, P a t → Ends (f a) t ok err)
    (stop : ∀ e t, E e t → err e t) : Ends (x >>= f) s ok err :=
  (ends_bind f).2 (h.mono next stop)

theorem Ends.and {ok' : α → Session δ → Prop} {err' : Fault → Session δ → Prop}
    (h : Ends x s ok err) (h' : Ends x s ok' err') :
    Ends x s (fun a t => ok a t ∧ ok' a t) (fun e t => err e t ∧ err' e t) := by
  unfold Ends at *
  split at h <;> simp_all

end Calculus

/-! Loops over lists: an invariant over the elements still to come. -/

section Loops

variable {γ : Type} {ok : β → Session δ → Prop} {err : Fault → Session δ → Prop}

/-- A `for` loop over a list meets its postcondition under an invariant on the elements still
to come that each turn keeps and that gives `ok` at the end. -/
theorem ends_forIn (xs : List γ) (b : β) (f : γ → β → FsM δ (ForInStep β)) (s : Session δ)
    (inv : List γ → β → Session δ → Prop)
    (step : ∀ x rest acc t, inv (x :: rest) acc t →
      Ends (f x acc) t (fun r u => match r with
        | .yield acc' => inv rest acc' u
        | .done acc' => ok acc' u) err)
    (finish : ∀ acc t, inv [] acc t → ok acc t) (start : inv xs b s) :
    Ends (forIn xs b f) s ok err := by
  induction xs generalizing b s with
  | nil => simpa only [List.forIn_nil, ends_pure] using finish b s start
  | cons x rest ih =>
    rw [List.forIn_cons, ends_bind]
    refine (step x rest b s start).mono ?_ fun _ _ h => h
    intro r u h
    cases r with
    | done acc' => exact h
    | yield acc' => exact ih acc' u h

/-- A loop over `a, a + 1, …, a + m - 1`, with an invariant indexed by the next number. -/
theorem ends_forIn_range' (a m : Nat) (b : β) (f : Nat → β → FsM δ (ForInStep β))
    (s : Session δ) (inv : Nat → β → Session δ → Prop)
    (step : ∀ j acc t, a ≤ j → j < a + m → inv j acc t →
      Ends (f j acc) t (fun r u => match r with
        | .yield acc' => inv (j + 1) acc' u
        | .done acc' => ok acc' u) err)
    (finish : ∀ acc t, inv (a + m) acc t → ok acc t) (start : inv a b s) :
    Ends (forIn (List.range' a m) b f) s ok err := by
  induction m generalizing a b s with
  | zero => simpa using finish b s start
  | succ m ih =>
    rw [List.range'_succ, List.forIn_cons, ends_bind]
    refine (step a b s (Nat.le_refl a) (by omega) start).mono ?_ fun _ _ h => h
    intro r u h
    cases r with
    | done acc' => exact h
    | yield acc' =>
      refine ih (a + 1) acc' u (fun j acc t low high => step j acc t (by omega) (by omega)) ?_ h
      intro acc t done
      exact finish acc t (by rwa [Nat.add_right_comm] at done)

/-- A loop over `a + m - 1, …, a + 1, a`, with an invariant indexed by the last number done. -/
theorem ends_forIn_range'_reverse (a m : Nat) (b : β) (f : Nat → β → FsM δ (ForInStep β))
    (s : Session δ) (inv : Nat → β → Session δ → Prop)
    (step : ∀ j acc t, a ≤ j → j < a + m → inv (j + 1) acc t →
      Ends (f j acc) t (fun r u => match r with
        | .yield acc' => inv j acc' u
        | .done acc' => ok acc' u) err)
    (finish : ∀ acc t, inv a acc t → ok acc t) (start : inv (a + m) b s) :
    Ends (forIn (List.range' a m).reverse b f) s ok err := by
  induction m generalizing b s with
  | zero => simpa using finish b s start
  | succ m ih =>
    rw [List.range'_1_concat, List.reverse_append, List.reverse_singleton, List.singleton_append,
      List.forIn_cons, ends_bind]
    refine (step (a + m) b s (by omega) (by omega) start).mono ?_ fun _ _ h => h
    intro r u h
    cases r with
    | done acc' => exact h
    | yield acc' =>
      exact ih acc' u (fun j acc t low high => step j acc t low (by omega)) h

end Loops

/-! The engine's own primitives. -/

section Primitives

variable {s : Session δ} {ok : α → Session δ → Prop} {err : Fault → Session δ → Prop}

@[simp] theorem ends_fail (e : FsError) : Ends (fail e : FsM δ α) s ok err ↔ err (.fs e) s :=
  Iff.rfl

@[simp] theorem ends_trap : Ends (trap : FsM δ α) s ok err ↔ err .trap s := Iff.rfl

@[simp] theorem ends_expect_some (a : α) : Ends (expect (some a) : FsM δ α) s ok err ↔ ok a s :=
  Iff.rfl

@[simp] theorem ends_expect_none : Ends (expect none : FsM δ α) s ok err ↔ err .trap s :=
  Iff.rfl

theorem ends_expect (o : Option α) :
    Ends (expect o : FsM δ α) s ok err ↔ (∀ a, o = some a → ok a s) ∧ (o = none → err .trap s) := by
  cases o <;> simp

@[simp] theorem ends_sub (a b : Nat) {ok : Nat → Session δ → Prop} :
    Ends (sub a b : FsM δ Nat) s ok err ↔ if b ≤ a then ok (a - b) s else err .trap s := by
  unfold sub
  split <;> rfl

@[simp] theorem ends_log (level : Level) (target message : String) {ok : Unit → Session δ → Prop} :
    Ends (log level target message : FsM δ Unit) s ok err ↔
      ok () { s with log := s.log.push ⟨level, target, message⟩ } := Iff.rfl

@[simp] theorem ends_logAll (rs : List Record) {ok : Unit → Session δ → Prop} :
    Ends (logAll rs : FsM δ Unit) s ok err ↔ ok () { s with log := s.log ++ rs.toArray } :=
  Iff.rfl

@[simp] theorem ends_device {ok : δ → Session δ → Prop} :
    Ends (device : FsM δ δ) s ok err ↔ ok s.device s := Iff.rfl

@[simp] theorem ends_setDevice (d : δ) {ok : Unit → Session δ → Prop} :
    Ends (setDevice d : FsM δ Unit) s ok err ↔ ok () { s with device := d } := Iff.rfl

@[simp] theorem ends_liftIo (r : Except IoError α) :
    Ends (liftIo r : FsM δ α) s ok err ↔
      match r with
      | .ok a => ok a s
      | .error e => err (.fs (.disk e)) s := by
  cases r <;> rfl

variable [BlockDevice δ]

@[simp] theorem ends_blockCount {ok : Nat → Session δ → Prop} :
    Ends (blockCount : FsM δ Nat) s ok err ↔ ok (BlockDevice.blockCount s.device) s := Iff.rfl

/-- Reading a block changes nothing, and stops only on the device's own failure. -/
theorem readBlock_ends (n : Nat) :
    Ends (readBlock n : FsM δ ByteArray) s
      (fun b t => t = s ∧ BlockDevice.readBlock s.device n = .ok b)
      (fun e t => t = s ∧ ∃ io, e = .fs (.disk io) ∧ BlockDevice.readBlock s.device n = .error io) := by
  simp only [readBlock, ends_bind, ends_device, ends_liftIo]
  split <;> simp_all

end Primitives

end FsM

end InodeFs
