/-!
# Traces

A step of the code generator leaves a list of things behind, in order, and then ends with a value or
with an error. What was left behind before an error is kept.
-/

namespace ThreadedCode

/-- What a computation emitted, and how it ended. -/
structure Trace (ι ε α : Type) where
  emitted : List ι
  outcome : Except ε α

namespace Trace

variable {ι κ ε δ α β : Type}

/-- Emits one thing. -/
def emit (item : ι) : Trace ι ε Unit := ⟨[item], .ok ()⟩

/-- Emits a list of things in order. -/
def emitAll (items : List ι) : Trace ι ε Unit := ⟨items, .ok ()⟩

/-- Ends with an error, or with a value, without emitting anything. -/
def ofExcept (outcome : Except ε α) : Trace ι ε α := ⟨[], outcome⟩

/-- Ends with an error. -/
def fail (error : ε) : Trace ι ε α := ⟨[], .error error⟩

/-- Carries on with the value of the first trace, if it has one. -/
def andThen (trace : Trace ι ε α) (next : α → Trace ι ε β) : Trace ι ε β :=
  match trace.outcome with
  | .ok value => ⟨trace.emitted ++ (next value).emitted, (next value).outcome⟩
  | .error error => ⟨trace.emitted, .error error⟩

instance : Monad (Trace ι ε) where
  pure value := ⟨[], .ok value⟩
  bind := andThen

/-- Emits something else for each thing emitted. -/
def mapEmitted (f : ι → κ) (trace : Trace ι ε α) : Trace κ ε α :=
  ⟨trace.emitted.map f, trace.outcome⟩

/-- Reports an error in other terms. -/
def mapError (f : ε → δ) (trace : Trace ι ε α) : Trace ι δ α :=
  ⟨trace.emitted, trace.outcome.mapError f⟩

@[simp] theorem pure_eq (value : α) : (pure value : Trace ι ε α) = ⟨[], .ok value⟩ := rfl

@[simp] theorem bind_ok (items : List ι) (value : α) (next : α → Trace ι ε β) :
    ((⟨items, .ok value⟩ : Trace ι ε α) >>= next) =
      ⟨items ++ (next value).emitted, (next value).outcome⟩ := rfl

@[simp] theorem bind_error (items : List ι) (error : ε) (next : α → Trace ι ε β) :
    ((⟨items, .error error⟩ : Trace ι ε α) >>= next) = ⟨items, .error error⟩ := rfl

@[simp] theorem map_ok (f : α → β) (items : List ι) (value : α) :
    f <$> (⟨items, .ok value⟩ : Trace ι ε α) = ⟨items, .ok (f value)⟩ :=
  congrArg (Trace.mk · _) (List.append_nil items)

@[simp] theorem map_error (f : α → β) (items : List ι) (error : ε) :
    f <$> (⟨items, .error error⟩ : Trace ι ε α) = ⟨items, .error error⟩ := rfl

end Trace

end ThreadedCode
