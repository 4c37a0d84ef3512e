import OracleNIO.EventLoop
import OracleNIO.OracleConnection

/-!
The work that a pool thread hands to the event loop of the connection.
-/

namespace OracleNIO

open Interaction EventLoop

/-- Code that runs on the event loop: a call of `onRow`, the end of a close, and
anything else. -/
inductive LoopTask where
  | onRow (row : OracleRow)
  | clear
  | other
deriving DecidableEq, Repr

/-- The future that the event loop hands out for the operation. -/
def newFuture? : TaskEvent → Option Nat
  | ⟨.submitRow _, future⟩ => some future
  | ⟨.submitClear, future⟩ => some future
  | ⟨.andAllSucceed _, future⟩ => some future
  | _ => none

/-- The job that an operation enqueues, `promise` being the one of the call. -/
def job? {ε : Type} (promise : Nat) : TaskEvent → Option (Job LoopTask (OracleError ⊕ ε))
  | ⟨.submitRow row, callback⟩ => some (.submit (.onRow row) callback)
  | ⟨.submitClear, cleared⟩ => some (.submit .clear cleared)
  | ⟨.andAllSucceed callbacks, all⟩ => some (.reduce callbacks all)
  | ⟨.cascade future, _⟩ => some (.whenComplete future (.cascade promise))
  | ⟨.promiseFail error, _⟩ => some (.complete promise (.error (.inl error)))
  | _ => none

/-- The loop after an operation of a pool thread; a new future gets the next name. -/
def enqueueEvent {ε : Type} (promise : Nat) (l : Loop LoopTask (OracleError ⊕ ε))
    (e : TaskEvent) : Option (Loop LoopTask (OracleError ⊕ ε)) :=
  let queue := l.queue ++ (job? promise e).toList
  match newFuture? e with
  | some future => if future = l.next then some { l with next := l.next + 1, queue } else none
  | none => some { l with queue }

theorem enqueueEvent_eq_some {ε : Type} {promise : Nat} {e : TaskEvent}
    {l l' : Loop LoopTask (OracleError ⊕ ε)} (h : enqueueEvent promise l e = some l') :
    l'.queue = l.queue ++ (job? promise e).toList ∧ l'.promises = l.promises ∧
      (newFuture? e = none ∧ l'.next = l.next ∨
        newFuture? e = some l.next ∧ l'.next = l.next + 1) := by
  unfold enqueueEvent at h
  cases hfuture : newFuture? e with
  | none =>
      rw [hfuture] at h
      cases h
      exact ⟨rfl, rfl, .inl ⟨rfl, rfl⟩⟩
  | some future =>
      rw [hfuture] at h
      split at h
      case h_1 heq =>
          cases heq
          split at h
          case isTrue hnext =>
              cases h
              exact ⟨rfl, rfl, .inr ⟨congrArg some hnext, rfl⟩⟩
          case isFalse => cases h
      case h_2 heq => cases heq

end OracleNIO
