import Lumencast.Protocol.Json

/-!
# Server/Store — the leaf-grain state map of a scene

Paths to values, in assignment order.  The kit runs on one event loop and never suspends inside
these methods, so the internal lock is left to `Server/Tasks`.
-/

namespace Lumencast

open Machinery

/-- The exceptions the server kit raises on its callers. -/
inductive PyError where
  /-- `EmptyPatchesError` of `Scene.set` and `Scene.emit`. -/
  | emptyPatches
  /-- `ValueError` of `Store.apply`. -/
  | storeEmpty
  /-- `OverflowError`: an integer too large to convert to float. -/
  | overflow
  /-- `KeyError`: the scene is not registered. -/
  | notRegistered
  /-- `TypeError`: an unhashable type. -/
  | unhashable
  deriving DecidableEq

/-- The state of a scene. -/
structure Store where
  state : Dict PyStr Json := .empty

namespace Store

/-- A copy of the current state. -/
def snapshot (s : Store) : Dict PyStr Json := s.state

/-- Assign a batch of leaves; the result is the pairs in batch order. -/
def apply (s : Store) (patches : Dict PyStr Json) :
    Except PyError (List (PyStr × Json) × Store) :=
  if patches.isEmpty then .error .storeEmpty
  else .ok (patches.entries, ⟨s.state.update patches.entries⟩)

/-- Drop every entry. -/
def reset (_ : Store) : Store := ⟨.empty⟩

end Store

end Lumencast
