/-!
# A mutex that one thread may hold across calls

The mutex as that thread sees it. It is not recursive: taking it while it is held
is recorded, and the thread goes no further. Sections of other threads contain no
calls back, so they are steps of their own, between those of the thread.
-/

structure Mutex : Type where
  held : Bool
  relocked : Bool
deriving DecidableEq, Repr

namespace Mutex

def init : Mutex := ⟨false, false⟩

def lock (m : Mutex) : Mutex := ⟨true, m.relocked || m.held⟩

def unlock (m : Mutex) : Mutex := { m with held := false }

/-- A section that calls nothing. -/
def pass (m : Mutex) : Mutex := m.lock.unlock

@[simp] theorem lock_held (m : Mutex) : m.lock.held = true := rfl

@[simp] theorem lock_relocked (m : Mutex) : m.lock.relocked = (m.relocked || m.held) := rfl

@[simp] theorem unlock_held (m : Mutex) : m.unlock.held = false := rfl

@[simp] theorem unlock_relocked (m : Mutex) : m.unlock.relocked = m.relocked := rfl

@[simp] theorem pass_held (m : Mutex) : m.pass.held = false := rfl

@[simp] theorem pass_relocked (m : Mutex) : m.pass.relocked = (m.relocked || m.held) := rfl

/-- A section of a mutex that is free leaves it as it was. -/
theorem pass_eq {m : Mutex} (h : m.held = false) : m.pass = m := by
  obtain ⟨held, relocked⟩ := m
  subst h
  simp only [pass, lock, unlock, Bool.or_false]

end Mutex
