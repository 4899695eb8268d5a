import SignalPaths.Event

/-!
Computations that may fail and that tell of events on the way. Events told before a failure are
kept. `Traced.result` forgets the events: it takes each way to combine traced computations to the
same way for `Except`.
-/

namespace SignalPaths

structure Traced (ε α : Type) where
  result : Except ε α
  events : List Event

namespace Traced

variable {ε ε' α β : Type}

protected def pure (a : α) : Traced ε α := ⟨.ok a, []⟩

protected def bind (x : Traced ε α) (f : α → Traced ε β) : Traced ε β :=
  match x.result with
  | .ok a =>
    let y := f a
    ⟨y.result, x.events ++ y.events⟩
  | .error e => ⟨.error e, x.events⟩

instance : Monad (Traced ε) where
  pure := Traced.pure
  bind := Traced.bind

def tell (event : Event) : Traced ε Unit := ⟨.ok (), [event]⟩

def tellAll (events : List Event) : Traced ε Unit := ⟨.ok (), events⟩

def fail (e : ε) : Traced ε α := ⟨.error e, []⟩

def ofExcept (x : Except ε α) : Traced ε α := ⟨x, []⟩

def mapError (f : ε → ε') (x : Traced ε α) : Traced ε' α := ⟨x.result.mapError f, x.events⟩

@[simp] theorem result_pure (a : α) : (pure a : Traced ε α).result = .ok a := rfl

@[simp] theorem result_bind (x : Traced ε α) (f : α → Traced ε β) :
    (x >>= f).result = x.result >>= fun a => (f a).result := by
  cases known : x.result <;> simp [Bind.bind, Traced.bind, Except.bind, known]

@[simp] theorem result_tell (event : Event) : (tell event : Traced ε Unit).result = .ok () := rfl

@[simp] theorem result_tellAll (events : List Event) :
    (tellAll events : Traced ε Unit).result = .ok () := rfl

@[simp] theorem result_fail (e : ε) : (fail e : Traced ε α).result = .error e := rfl

@[simp] theorem result_ofExcept (x : Except ε α) : (ofExcept x).result = x := rfl

@[simp] theorem result_mapError (f : ε → ε') (x : Traced ε α) :
    (x.mapError f).result = x.result.mapError f := rfl

@[simp] theorem ok_bind (a : α) (f : α → Except ε β) : (Except.ok a >>= f) = f a := rfl

@[simp] theorem error_bind (e : ε) (f : α → Except ε β) :
    (Except.error e >>= f) = .error e := rfl

@[simp] theorem mapError_ok (f : ε → ε') (a : α) : (Except.ok a).mapError f = .ok a := rfl

@[simp] theorem mapError_error (f : ε → ε') (e : ε) :
    (Except.error e : Except ε α).mapError f = .error (f e) := rfl

end Traced

end SignalPaths
