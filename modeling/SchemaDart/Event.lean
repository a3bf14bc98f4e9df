import SchemaDart.Fault
import SchemaDart.Log

/-!
# Events of a run

What happens in a run, as far as its log shows it, and computations that leave such events behind.  A computation
may fail; what happened before the failure stays.
-/

namespace SchemaDart

/-- What happens in a run, as far as the log shows it. -/
inductive Event where
  | discovered (scalars : Nat) (interfaces : Nat)
  | emitting (kind : String)
  | degraded (degradation : Degradation)
  | generated (declarations : Nat)
deriving DecidableEq

namespace Event

/-- Only degradations are more than details. -/
def level : Event → Level
  | .degraded _ => .warn
  | _ => .debug

def message : Event → String
  | .discovered scalars interfaces =>
    "discovered " ++ scalars.repr ++ " custom scalar(s) and " ++ interfaces.repr ++ " interface(s)"
  | .emitting kind => "emitting " ++ kind
  | .degraded degradation => degradation.warning
  | .generated declarations => "generated " ++ declarations.repr ++ " declaration(s)"

/-- The event as an entry of the log. -/
def entry (e : Event) : LogEntry := ⟨e.level, e.message⟩

end Event

/-- The outcome of a computation that leaves events behind and may fail. -/
@[ext] structure Logged (α : Type) where
  events : List Event
  result : Except Fault α

namespace Logged

variable {α β : Type}

/-- Goes on with the result of `x`, unless that has failed. -/
def andThen (x : Logged α) (f : α → Logged β) : Logged β :=
  match x.result with
  | .ok a => ⟨x.events ++ (f a).events, (f a).result⟩
  | .error fault => ⟨x.events, .error fault⟩

instance : Monad Logged where
  pure a := ⟨[], .ok a⟩
  bind := andThen

/-- Leaves one event behind. -/
def emit (e : Event) : Logged Unit := ⟨[e], .ok ()⟩

/-- A computation without events. -/
def ofExcept (r : Except Fault α) : Logged α := ⟨[], r⟩

@[simp] theorem pure_eq (a : α) : (pure a : Logged α) = ⟨[], .ok a⟩ := rfl

@[simp] theorem ok_bind (es : List Event) (a : α) (f : α → Logged β) :
    (⟨es, .ok a⟩ : Logged α) >>= f = ⟨es ++ (f a).events, (f a).result⟩ := rfl

@[simp] theorem error_bind (es : List Event) (e : Fault) (f : α → Logged β) :
    (⟨es, .error e⟩ : Logged α) >>= f = ⟨es, .error e⟩ := rfl

theorem bind_pure_self (x : Logged α) : (x >>= fun a => (pure a : Logged α)) = x := by
  obtain ⟨es, r⟩ := x
  cases r with
  | error e => rfl
  | ok a => rw [ok_bind, pure_eq, List.append_nil]

theorem bind_bind {γ : Type} (x : Logged α) (f : α → Logged β) (g : β → Logged γ) :
    x >>= f >>= g = x >>= fun a => f a >>= g := by
  obtain ⟨es, r⟩ := x
  cases r with
  | error e => rfl
  | ok a =>
    -- what `f` leaves comes behind `es` on both sides
    rw [ok_bind, ok_bind]
    obtain ⟨es', r'⟩ := f a
    cases r' with
    | error e => rfl
    | ok b => rw [ok_bind, ok_bind, List.append_assoc]

instance : LawfulMonad Logged := LawfulMonad.mk' Logged
  (fun x => bind_pure_self x)
  (fun _ _ => rfl)
  (fun x f g => bind_bind x f g)

end Logged
end SchemaDart
