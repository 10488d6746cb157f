import PacketLayer.Endpoint.Basic

/-!
# Operations on an endpoint as programs

An operation may fail, but it leaves the endpoint in some state in any case.
Operations are put together in sequence; the first that fails ends the sequence,
and the state is the one that it left.
-/

namespace PacketLayer.Endpoint

variable {C : Type}

/-- An operation on an endpoint may fail, and leaves a state in any case. -/
def Act (C α : Type) := Endpoint C → Except Fault α × Endpoint C

namespace Act

variable {α β : Type}

instance : Monad (Act C) where
  pure a := fun e => (.ok a, e)
  bind m f := fun e =>
    match m e with
    | (.ok a, e) => f a e
    | (.error fault, e) => (.error fault, e)

/-- Fails without changing the state. -/
def fail (fault : Fault) : Act C α := fun e => (.error fault, e)

/-- Gives a result or fails, without changing the state. -/
def ofExcept (result : Except Fault α) : Act C α := fun e => (result, e)

/-- Reads something off the state. -/
def ask (f : Endpoint C → α) : Act C α := fun e => (.ok (f e), e)

/-- Changes the state and cannot fail. -/
def update (f : Endpoint C → Endpoint C) : Act C Unit := fun e => (.ok (), f e)

/-- Notes a failure of the operation. -/
def noting (direction : Direction) (m : Act C α) : Act C α := fun e =>
  match m e with
  | (.ok a, e) => (.ok a, e)
  | (.error fault, e) => (.error fault, e.note (.failure direction fault.message))

theorem bind_of_ok {m : Act C α} {f : α → Act C β} {e next : Endpoint C} {a : α}
    (hrun : m e = (.ok a, next)) : (m >>= f) e = f a next := by
  show (match m e with
    | (.ok a, e) => f a e
    | (.error fault, e) => (.error fault, e)) = f a next
  rw [hrun]

theorem bind_of_error {m : Act C α} {f : α → Act C β} {e next : Endpoint C} {fault : Fault}
    (hrun : m e = (.error fault, next)) : (m >>= f) e = (.error fault, next) := by
  show (match m e with
    | (.ok a, e) => f a e
    | (.error fault, e) => (.error fault, e)) = (.error fault, next)
  rw [hrun]

@[simp] theorem ask_bind (f : Endpoint C → α) (next : α → Act C β) (e : Endpoint C) :
    (ask f >>= next) e = next (f e) e :=
  rfl

@[simp] theorem update_bind (f : Endpoint C → Endpoint C) (next : Unit → Act C β)
    (e : Endpoint C) : (update f >>= next) e = next () (f e) :=
  rfl

@[simp] theorem ofExcept_ok_bind (a : α) (next : α → Act C β) (e : Endpoint C) :
    (ofExcept (.ok a) >>= next) e = next a e :=
  rfl

@[simp] theorem ofExcept_error_bind (fault : Fault) (next : α → Act C β) (e : Endpoint C) :
    (ofExcept (.error fault) >>= next) e = (.error fault, e) :=
  rfl

/-- An operation keeps what a view shows of the state, whether or not it fails. -/
def Keeps {γ : Type} (view : Endpoint C → γ) (m : Act C α) : Prop :=
  ∀ e, view (m e).2 = view e

theorem Keeps.bind {γ : Type} {view : Endpoint C → γ} {m : Act C α} {f : α → Act C β}
    (hm : m.Keeps view) (hf : ∀ a, (f a).Keeps view) : (m >>= f).Keeps view := by
  intro e
  show view (match m e with
    | (.ok a, e) => f a e
    | (.error fault, e) => (.error fault, e)).2 = view e
  have hfirst := hm e
  split
  next a next hrun => rw [hrun] at hfirst; exact (hf a next).trans hfirst
  next fault next hrun => rw [hrun] at hfirst; exact hfirst

end Act

end PacketLayer.Endpoint
