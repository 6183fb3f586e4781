/-!
# Link options

Whether the naming rules are checked again, and whether roles that nothing is granted to are
reported.
-/

namespace DataModel

/-- The options of a link. -/
structure LinkOptions where
  /-- Names are checked again, for documents that were not declared step by step. -/
  recheck : Bool := true
  /-- Unused roles are reported as warnings. -/
  warnUnusedRoles : Bool := false
  deriving DecidableEq

namespace LinkOptions

/-- For documents that were declared step by step: only the naming rules are taken on trust. -/
def trusted : LinkOptions := { recheck := false }

/-- Every check and every warning. -/
def strict : LinkOptions := { recheck := true, warnUnusedRoles := true }

end LinkOptions

end DataModel
