import MapLoader.Load.Thresholds

/-! How much was written to each table since its last commit. -/

namespace MapLoader

inductive CounterReset
  | global | perTable
  deriving DecidableEq, Inhabited, Repr

inductive CommitCause
  /-- The counter of a table reached its threshold. -/
  | threshold (table : Table)
  /-- The session turned to another table. -/
  | switch
  deriving DecidableEq, Repr

structure Counters where
  policy : CounterReset
  /-- A table that was never counted, or was reset, has no entry. -/
  entries : PerTable (Option Nat) := .const none
  deriving DecidableEq, Inhabited, Repr

namespace Counters

def new (policy : CounterReset) : Counters := { policy }

def get (c : Counters) (t : Table) : Nat := (c.entries.get t).getD 0

def add (c : Counters) (t : Table) (n : Nat) : Counters :=
  { c with entries := c.entries.set t (some (addSaturating (c.get t) n)) }

def reset (c : Counters) (cause : CommitCause) : Counters :=
  match c.policy, cause with
  | .global, _ => { c with entries := .const none }
  | .perTable, .threshold t => { c with entries := c.entries.set t none }
  | .perTable, .switch => c

@[simp] theorem get_new (p : CounterReset) (t : Table) : (new p).get t = 0 := by simp [new, get]

@[simp] theorem get_add (c : Counters) (s t : Table) (n : Nat) :
    (c.add s n).get t = if t = s then addSaturating (c.get s) n else c.get t := by
  by_cases h : t = s <;> simp [add, get, h]

@[simp] theorem policy_add (c : Counters) (t : Table) (n : Nat) :
    (c.add t n).policy = c.policy := rfl

@[simp] theorem policy_reset (c : Counters) (cause : CommitCause) :
    (c.reset cause).policy = c.policy := by
  unfold reset
  split <;> simp_all

theorem get_reset_of_global {c : Counters} (h : c.policy = .global) (cause : CommitCause)
    (t : Table) : (c.reset cause).get t = 0 := by simp [reset, h, get]

@[simp] theorem get_reset_threshold (c : Counters) (t : Table) :
    (c.reset (.threshold t)).get t = 0 := by
  cases h : c.policy <;> simp [reset, h, get]

theorem get_reset_le (c : Counters) (cause : CommitCause) (t : Table) :
    (c.reset cause).get t ≤ c.get t := by
  cases h : c.policy with
  | global => simp [get_reset_of_global h]
  | perTable =>
    cases cause with
    | switch => simp [reset, h]
    | threshold s => by_cases hs : t = s <;> simp [reset, h, get, hs]

end Counters

end MapLoader
