import InodeFs.Store.Service
import InodeFs.Proofs.Traversal

/-!
Store requests read through their outcomes: `Settles` distributes over the monad's operations
as `Ends` does, so a proof about a request follows the request's own text.
-/

namespace InodeFs

variable {δ : Type} {α β γ : Type}

/-- What a run answers, read off its outcomes; stating the answer keeps the elaborator from
running the computation to find it. -/
theorem FsM.answer_eq_of_ends {x : FsM δ α} {d : δ} {v : Except Fault α}
    (h : FsM.Ends x { device := d } (fun a _ => .ok a = v) fun e _ => .error e = v) :
    FsM.answer x d = v :=
  FsM.answer_after_of_ends (fun r _ => r = v) h

namespace Store

open FsM Engine

/-- A run of `x` from `s` meets `ok` with its value, `stop` with the status it stops with, and
`err` with a fault that escapes, each with the final session. -/
def Settles (x : StoreM δ α) (s : Session δ) (ok : α → Session δ → Prop)
    (stop : Status → Session δ → Prop) (err : Fault → Session δ → Prop) : Prop :=
  Ends x.run s (fun r t => match r with
    | .ok a => ok a t
    | .error st => stop st t) err

section Calculus

variable {s : Session δ} {ok : β → Session δ → Prop} {stop : Status → Session δ → Prop}
  {err : Fault → Session δ → Prop}

@[simp] theorem settles_pure (a : β) : Settles (pure a : StoreM δ β) s ok stop err ↔ ok a s :=
  Iff.rfl

@[simp] theorem settles_throw (st : Status) :
    Settles (throw st : StoreM δ β) s ok stop err ↔ stop st s := Iff.rfl

@[simp] theorem settles_bind (x : StoreM δ α) (f : α → StoreM δ β) :
    Settles (x >>= f) s ok stop err ↔
      Settles x s (fun a t => Settles (f a) t ok stop err) stop err := by
  unfold Settles
  rw [ExceptT.run_bind, ends_bind]
  constructor <;> intro h <;> refine h.mono ?_ fun _ _ h => h <;> intro r t <;> cases r <;> exact id

@[simp] theorem settles_lift (x : FsM δ β) :
    Settles (liftM x : StoreM δ β) s ok stop err ↔ Ends x s ok err := by
  unfold Settles
  show Ends (Except.ok <$> x) s _ err ↔ _
  rw [ends_map]

theorem Settles.mono {x : StoreM δ β} {ok' : β → Session δ → Prop}
    {stop' : Status → Session δ → Prop} {err' : Fault → Session δ → Prop}
    (h : Settles x s ok stop err) (hok : ∀ a t, ok a t → ok' a t)
    (hstop : ∀ st t, stop st t → stop' st t) (herr : ∀ e t, err e t → err' e t) :
    Settles x s ok' stop' err' := by
  refine Ends.mono h ?_ herr
  intro r t
  cases r with
  | ok a => exact hok a t
  | error st => exact hstop st t

/-- A request's `for` loop meets its postconditions under an invariant on the elements to come. -/
theorem settles_forIn (xs : List γ) (b : β) (f : γ → β → StoreM δ (ForInStep β)) (s : Session δ)
    (inv : List γ → β → Session δ → Prop)
    (step : ∀ x rest acc t, inv (x :: rest) acc t →
      Settles (f x acc) t (fun r u => match r with
        | .yield acc' => inv rest acc' u
        | .done acc' => ok acc' u) stop err)
    (finish : ∀ acc t, inv [] acc t → ok acc t) (start : inv xs b s) :
    Settles (forIn xs b f) s ok stop err := by
  induction xs generalizing b s with
  | nil => simpa only [List.forIn_nil, settles_pure] using finish b s start
  | cons x rest ih =>
    rw [List.forIn_cons, settles_bind]
    refine (step x rest b s start).mono ?_ (fun _ _ h => h) fun _ _ h => h
    intro r u h
    cases r with
    | done acc' => exact h
    | yield acc' => exact ih acc' u h

end Calculus

/-- No engine error becomes a success, whatever the request was doing. -/
theorem statusFor_ne_ok (e : FsError) (phase : Phase) : statusFor e phase ≠ .ok := by
  cases e <;> cases phase <;> simp [statusFor]

variable {s : Session δ}

/-- An engine call in a request gives its value or stops with its error's status; only a broken
bound escapes. -/
theorem settles_orStatus {x : FsM δ β} {ok : β → Session δ → Prop}
    {err : Fault → Session δ → Prop}
    (h : Ends x s ok err) (phase : Phase) :
    Settles (orStatus phase x) s ok (fun st t => ∃ e, st = statusFor e phase ∧ err (.fs e) t)
      (fun f t => f = .trap ∧ err .trap t) := by
  unfold orStatus
  rw [settles_bind, settles_lift]
  refine (ends_attempt h).mono ?_ fun _ _ h => h
  rintro r t (⟨a, rfl, done⟩ | ⟨e, rfl, stopped⟩)
  · exact done
  · exact ⟨e, rfl, stopped⟩

/-! ## Requests below the mount point -/

section Handle

variable {err : Fault → Session δ → Prop} {ok : Response → Session δ → Prop} {path : String}
  {segs : List String}

/-- A request's computation answers its response, or the response of the status it stops with. -/
theorem ends_respond (x : StoreM δ Response) :
    Ends (x.run >>= fun result => match result with
        | .ok r => pure r
        | .error st => pure (Response.failure st)) s ok err ↔
      Settles x s ok (fun st t => ok (Response.failure st) t) err := by
  rw [ends_bind]
  unfold Settles
  constructor <;> intro h <;> refine h.mono ?_ fun _ _ h => h <;> intro r t <;> cases r <;> exact id

variable [BlockDevice δ]

theorem ends_handle_get (mounted : mountedSegments path = some segs) (body : ByteArray) :
    Ends (handle ⟨.get, path, body⟩ : FsM δ Response) s ok err ↔
      Settles (getAt segs) s ok (fun st t => ok (Response.failure st) t) err := by
  simp only [handle, mounted]
  exact ends_respond _

theorem ends_handle_put (mounted : mountedSegments path = some segs) (body : ByteArray) :
    Ends (handle ⟨.put, path, body⟩ : FsM δ Response) s ok err ↔
      Settles (putAt segs body) s ok (fun st t => ok (Response.failure st) t) err := by
  simp only [handle, mounted]
  exact ends_respond _

theorem ends_handle_delete (mounted : mountedSegments path = some segs) (body : ByteArray) :
    Ends (handle ⟨.delete, path, body⟩ : FsM δ Response) s ok err ↔
      Settles (deleteAt segs) s ok (fun st t => ok (Response.failure st) t) err := by
  simp only [handle, mounted]
  exact ends_respond _

end Handle

end Store

end InodeFs
