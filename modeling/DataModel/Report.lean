import DataModel.Linked

/-!
# Reports

The report of a linked document lists its entities by height, each with its fields and what their
references point to, then the role tree, each role under its parent, and the roles that nothing is
granted to. The headings are coloured for a terminal.
-/

namespace DataModel

namespace Report

/-- Bold text. -/
def bold (s : String) : String := "\x1b[1m" ++ s ++ "\x1b[0m"

/-- A bold and cyan heading. -/
def heading (s : String) : String := "\x1b[1;36m=== " ++ s ++ " ===\x1b[0m"

/-- A text at a depth, two blanks for each level. -/
def indented (depth : Nat) (s : String) : String := "".pushn ' ' (2 * depth) ++ s

end Report

namespace LinkedDocument

open Report

variable (l : LinkedDocument)

/-- The line of a field. -/
def fieldLine (f : Field) : String :=
  let target := match l.referenceTarget? f with
    | some t => " -> " ++ qualified ((l.document.entity? t.id.entity).elim "?" Entity.name) t.name
    | none => ""
  indented 2 s!"{f.name}: {f.type.noun}{target}"

/-- The lines of an entity. -/
def entityLines (e : Entity) : List String :=
  indented 1 s!"{e.name} [height {e.height}]" :: e.fields.map l.fieldLine

/-- The lines of the entities, by height. -/
def entityReport : List String :=
  (bold "Entities" ++ " (emission order):") :: l.entitiesByHeight.flatMap l.entityLines

/-- The lines of the unused roles. -/
def unusedLines : List String :=
  (l.unusedRoles.filterMap l.roleName?).map fun name => indented 1 s!"(unused: {name})"

end LinkedDocument

namespace RoleTree

open Report

variable (t : RoleTree)

/-- The lines of a role and of the roles below it, at most `levels` deep. -/
def lines : (levels depth : Nat) → Handle .role → List String
  | 0, _, _ => []
  | levels + 1, depth, id =>
    match t.get? id with
    | none => []
    | some role => indented depth role.name :: role.children.flatMap (lines levels (depth + 1))

/-- The lines of the role tree. In a forest no role is deeper than there are roles. -/
def report : List String :=
  bold "Roles:" :: t.roots.flatMap (t.lines t.roles.length 1)

end RoleTree

/-- **The lines of the report** on the document of a file. -/
def LinkedDocument.report (l : LinkedDocument) (file : String) : List String :=
  Report.heading file :: l.entityReport ++ l.document.roles.report ++ l.unusedLines ++ [""]

end DataModel
