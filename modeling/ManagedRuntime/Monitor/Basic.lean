import ManagedRuntime.Failure.Basic
import ManagedRuntime.Thread.Basic

/-!
Monitors: re-entrant ownership and a wait set. A notification is a token that one waiter consumes.
A waiter leaves the wait set on a token, an interrupt or a timeout, and takes the monitor back with
its old count before it goes on. Every definition is one critical section, or the part of one that
no other thread can interrupt.
-/
namespace ManagedRuntime

structure Monitor where
  owner : Option ThreadId
  count : Nat
  waiting : Nat
  tokens : Nat
  /-- The owner as it is read outside the critical sections. -/
  published : Option ThreadId
  deriving DecidableEq, Repr

inductive WakeReason where
  | notified | interrupted | timedOut
  deriving DecidableEq, Repr

namespace Monitor

def unowned : Monitor := ⟨none, 0, 0, 0, none⟩

def ownedBy (m : Monitor) (t : ThreadId) : Bool := m.published == some t

def give (m : Monitor) (t : ThreadId) (count : Nat) : Monitor :=
  { m with owner := some t, count, published := some t }

def free (m : Monitor) : Monitor := { m with owner := none, count := 0, published := none }

/-- One more level of ownership for `t`, none while another thread is the owner. -/
def enter? (m : Monitor) (t : ThreadId) : Option Monitor :=
  if m.owner = none ∨ m.owner = some t then some (m.give t (m.count + 1)) else none

def exit (m : Monitor) (t : ThreadId) : Except Failure Monitor :=
  if m.owner ≠ some t then .error .illegalMonitorState
  else if m.count = 1 then .ok m.free
  else .ok { m with count := m.count - 1 }

/-- The owner gives the monitor up and joins the wait set; the count to restore is returned. -/
def joinWaiters (m : Monitor) : Nat × Monitor :=
  (m.count, { m.free with waiting := m.waiting + 1 })

/-- A thread leaves the wait set. There are never more tokens than threads left to take them. -/
def leaveWaiters (m : Monitor) : Monitor :=
  { m with waiting := m.waiting - 1, tokens := min m.tokens (m.waiting - 1) }

/-- Why a waiter may leave the wait set now, none if it sleeps on. -/
def wakeReason? (m : Monitor) (interrupted timedOut : Bool) : Option WakeReason :=
  if m.tokens > 0 then some .notified
  else if interrupted then some .interrupted
  else if timedOut then some .timedOut
  else none

def wake (m : Monitor) : WakeReason → Monitor
  | .notified => { m with tokens := m.tokens - 1 }.leaveWaiters
  | _ => m.leaveWaiters

def reacquire? (m : Monitor) (t : ThreadId) (count : Nat) : Option Monitor :=
  if m.owner = none then some (m.give t count) else none

def notify (m : Monitor) (t : ThreadId) : Except Failure Monitor :=
  if m.owner ≠ some t then .error .illegalMonitorState
  else .ok { m with tokens := if m.tokens < m.waiting then m.tokens + 1 else m.tokens }

def notifyAll (m : Monitor) (t : ThreadId) : Except Failure Monitor :=
  if m.owner ≠ some t then .error .illegalMonitorState
  else .ok { m with tokens := m.waiting }

end Monitor
end ManagedRuntime
