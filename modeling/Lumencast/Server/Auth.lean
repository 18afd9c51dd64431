import Lumencast.Protocol.Frames
import Lumencast.Protocol.LeafPath

/-!
# Server/Auth — who may write what

`roleCanWrite` is the authorisation matrix, `Identity.canWrite` the gate a session's inputs pass.
Whatever the role, the gate lets through two namespaces only (`canWrite_namespace`).
-/

namespace Lumencast

/-- Compare a service-token path pattern against a concrete path. -/
def patternMatches (pattern path : PyStr) : Bool :=
  if pattern = "" then false
  else if pattern = path then true
  else if pattern.endsWith ".*" then hasPrefix path (pattern.dropEnd 2)
  else if pattern.endsWith "*" && (pattern.dropEnd 1).endsWith "." then
    hasPrefix path ((pattern.dropEnd 1).dropEnd 1)
  else hasPrefix path pattern

/-- Whether a connection of `role` may write `path`; `paths` narrows a service token. -/
def roleCanWrite (role : Role) (path : PyStr) (paths : List PyStr) : Bool :=
  match role with
  | .operator => hasPrefix path "__inputs"
  | .service => hasPrefix path "__inputs" && (paths.isEmpty || paths.any (patternMatches · path))
  | .test => hasPrefix path "__test"
  | .viewer => false

/-- Principal returned by an authenticator. -/
structure Identity where
  subject : PyStr := ""
  role : Option Role := none
  paths : List PyStr := []
  deriving DecidableEq

/-- Whether the identity carries a role. -/
def Identity.isAuthenticated (identity : Identity) : Bool := identity.role.isSome

/-- The role and scope gate for `path`. -/
def Identity.canWrite (identity : Identity) (path : PyStr) : Bool :=
  match identity.role with
  | none => false
  | some role => roleCanWrite role path identity.paths

/-- **The gate opens onto two namespaces only.** -/
theorem canWrite_namespace {identity : Identity} {path : PyStr} (h : identity.canWrite path) :
    hasPrefix path "__inputs" ∨ hasPrefix path "__test" := by
  rw [Identity.canWrite] at h
  rcases hrole : identity.role with _ | role
  · simp [hrole] at h
  · rw [hrole] at h
    change roleCanWrite role path identity.paths = true at h
    rcases role with _ | _ | _ | _
    · simp [roleCanWrite] at h
    · exact Or.inl h
    · exact Or.inl (Bool.and_eq_true_iff.mp h).1
    · exact Or.inr h

end Lumencast
