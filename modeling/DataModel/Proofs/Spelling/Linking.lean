import DataModel.Proofs.Linking.Filling
import DataModel.Proofs.Linking.Heights
import DataModel.Proofs.Roles.Growth
import DataModel.Proofs.Spelling.Folding
import DataModel.Proofs.Spelling.Mirroring

/-!
# Linking does not tell the cases of names apart

Two documents that differ in the case of names only link alike (`Document.link_spelling`): both
link, with one linked state, or both fail, in one pass and with causes of one variant.

There is one statement for each step of linking: what the step does to the folded document mirrors
what it does to the document.  A step looks names up, which folding does not disturb, or compares
them by what they fold to, or else puts them into the texts of an error.  The whole link follows
(`Document.link_folded`), and two documents that fold to one both mirror the link of it.
-/

namespace DataModel

/-! ### Placement and declared names -/

theorem Scope.checkDeclared_folded (scope : Scope) (seen names : List String) :
    Agree (scope.checkDeclared seen names)
      (scope.checkDeclared seen (names.map Ident.fold)) := by
  induction names generalizing seen with
  | nil => exact .pure rfl
  | cons name names ih =>
    rw [List.map_cons, checkDeclared, checkDeclared, Ident.isReserved_fold, Ident.fold_fold]
    split_ifs
    · exact .fail rfl
    · exact .fail rfl
    · exact ih _

namespace Unique

theorem sortedNames_folded (u : Unique) : u.folded.sortedNames = u.sortedNames := by
  have hnames : (fun f : Path => Ident.fold f.dotted) ∘ Path.folded =
      fun f => Ident.fold f.dotted := by
    funext f
    rw [Function.comp_apply, Path.dotted_folded, Ident.fold_fold]
  rw [sortedNames, sortedNames, folded, List.map_map, hnames]

theorem key_folded (u : Unique) : u.folded.key = u.key := by
  rw [key, key, sortedNames_folded]

theorem repeatedAmong_folded (seen names : List String) :
    repeatedAmong (seen.map Ident.fold) (names.map Ident.fold) =
      (repeatedAmong seen names).map Ident.fold := by
  induction names generalizing seen with
  | nil => rfl
  | cons name names ih =>
    have hseen : (seen.map Ident.fold).any (Ident.same · (Ident.fold name)) =
        seen.any (Ident.same · name) := by
      rw [List.any_map]
      exact congrArg seen.any (funext fun s => Ident.same_fold s name)
    have hrest := ih (seen ++ [name])
    rw [List.map_append, List.map_singleton] at hrest
    rw [List.map_cons, repeatedAmong, repeatedAmong, hseen]
    split_ifs
    · rfl
    · exact hrest

theorem repeatedField?_folded (u : Unique) :
    u.folded.repeatedField? = u.repeatedField?.map Ident.fold := by
  have hnames : u.folded.fields.map Path.dotted = (u.fields.map Path.dotted).map Ident.fold := by
    rw [folded, List.map_map, List.map_map]
    exact List.map_congr_left fun p _ => p.dotted_folded
  rw [repeatedField?, repeatedField?, hnames]
  exact repeatedAmong_folded [] _

theorem checkDeclared_folded (seen : List String) (us : List Unique) :
    Agree (checkDeclared seen us) (checkDeclared seen (us.map folded)) := by
  induction us generalizing seen with
  | nil => exact .pure rfl
  | cons u us ih =>
    have hlength : u.folded.fields.length = u.fields.length := List.length_map ..
    simp only [List.map_cons, checkDeclared, hlength, repeatedField?_folded, key_folded]
    by_cases hshort : u.fields.length < 2
    · rw [if_pos hshort, if_pos hshort]
      exact .failFlaw
    · rw [if_neg hshort, if_neg hshort]
      cases u.repeatedField? with
      | some field => exact .fail rfl
      | none =>
        dsimp only [Option.map_none]
        split_ifs
        · exact .fail rfl
        · exact ih _

end Unique

theorem Handle.checkPlace_folded {k : Handle.Kind} (id' : Handle k) (name name' : String)
    (position : Nat) :
    Agree (id'.checkPlace name position) (id'.checkPlace name' position) := by
  unfold checkPlace
  split_ifs
  · exact .placed .failFlaw
  · exact .pure rfl

namespace Entity

variable (e : Entity)

theorem checkPlace_folded (position : Nat) :
    Agree (e.checkPlace position) (e.folded.checkPlace position) := by
  refine (e.id.checkPlace_folded _ _ position).bind fun _ => .forM_zipIdx fun f n => ?_
  show Agree (f.checkPlace e n) (f.folded.checkPlace e.folded n)
  refine (Mirrors.refl (FieldId.allocate e.id n)).bind fun allocated => ?_
  have hid : f.folded.id = f.id := rfl
  rw [hid]
  split_ifs
  · exact .placed .failFlaw
  · exact .pure rfl

theorem checkDeclared_folded :
    Agree e.checkDeclared e.folded.checkDeclared := by
  have hfields : e.folded.fields.map Field.name = (e.fields.map Field.name).map Ident.fold := by
    rw [folded, List.map_map, List.map_map]
    rfl
  have hsearches : e.folded.searches.filterMap Search.name =
      (e.searches.filterMap Search.name).map Ident.fold := by
    rw [folded, List.filterMap_map, List.map_filterMap]
    rfl
  have hupdates : e.folded.updates.filterMap Mutation.name =
      (e.updates.filterMap Mutation.name).map Ident.fold := by
    rw [folded, List.filterMap_map, List.map_filterMap]
    rfl
  have hdeletes : e.folded.deletes.filterMap Mutation.name =
      (e.deletes.filterMap Mutation.name).map Ident.fold := by
    rw [folded, List.filterMap_map, List.map_filterMap]
    rfl
  have hrowids : e.folded.fields.countP (·.flags.rowid) = e.fields.countP (·.flags.rowid) :=
    List.countP_map
  rw [checkDeclared, checkDeclared, hfields, hsearches, hupdates, hdeletes, hrowids]
  refine (Scope.checkDeclared_folded _ _ _).bind fun _ => ?_
  refine (Scope.checkDeclared_folded _ _ _).bind fun _ => ?_
  refine (Scope.checkDeclared_folded _ _ _).bind fun _ => ?_
  refine (Scope.checkDeclared_folded _ _ _).bind fun _ => ?_
  refine (Unique.checkDeclared_folded [] e.uniques).bind fun _ => ?_
  split_ifs
  · exact .fail rfl
  · exact .pure rfl

end Entity

theorem Enumeration.checkDeclared_folded (e : Enumeration) :
    Agree e.checkDeclared e.folded.checkDeclared := by
  have hitems : e.folded.items.map EnumItem.name = (e.items.map EnumItem.name).map Ident.fold := by
    rw [folded, List.map_map, List.map_map]
    rfl
  rw [checkDeclared, checkDeclared, hitems]
  exact Scope.checkDeclared_folded _ _ _

theorem Bitfield.checkDeclared_folded (b : Bitfield) :
    Agree b.checkDeclared b.folded.checkDeclared := by
  have hitems : b.folded.items.map BitItem.name = (b.items.map BitItem.name).map Ident.fold := by
    rw [folded, List.map_map, List.map_map]
    rfl
  have hfind : (b.folded.items.find? fun i => maxBitIndex < i.index.toNat) =
      (b.items.find? fun i => maxBitIndex < i.index.toNat).map BitItem.folded :=
    List.find?_map ..
  rw [checkDeclared, checkDeclared, hitems, hfind]
  refine (Scope.checkDeclared_folded _ _ _).bind fun _ => ?_
  cases b.items.find? fun i => maxBitIndex < i.index.toNat with
  | none => exact .pure rfl
  | some i => exact .failFlaw

namespace Document

variable (d : Document)

theorem checkPlacement_folded :
    Agree d.checkPlacement d.folded.checkPlacement :=
  (Mirrors.forM_zipIdx fun e i => e.checkPlace_folded i).bind fun _ =>
    (Mirrors.forM_zipIdx fun e i => e.id.checkPlace_folded e.name _ i).bind fun _ =>
    Mirrors.forM_zipIdx fun b i => b.id.checkPlace_folded b.name _ i

theorem checkDeclared_folded : Agree d.checkDeclared d.folded.checkDeclared := by
  have hnames : d.folded.topLevelNames = d.topLevelNames.map Ident.fold := by
    simp only [topLevelNames, folded, List.map_append, List.map_map]
    rfl
  rw [checkDeclared, checkDeclared, hnames]
  exact (Scope.checkDeclared_folded _ _ _).bind fun _ =>
    (Mirrors.forM fun e _ => e.checkDeclared_folded.placed).bind fun _ =>
    (Mirrors.forM fun e _ => e.checkDeclared_folded.placed).bind fun _ =>
    Mirrors.forM fun b _ => b.checkDeclared_folded.placed

end Document

/-! ### Enumerations and bit-field sets -/

namespace Enumeration

variable (e : Enumeration)

theorem numberItems_folded (before : List Int64) (items : List EnumItem) :
    Mirrors Error.Alike (List.map EnumItem.folded) (e.numberItems before items)
      (e.folded.numberItems before (items.map EnumItem.folded)) := by
  induction items generalizing before with
  | nil => exact .pure rfl
  | cons i items ih =>
    have hnumber : i.folded.number? before = i.number? before := rfl
    rw [List.map_cons, numberItems, numberItems, hnumber]
    cases i.number? before with
    | none => exact .failFlaw
    | some v =>
      dsimp only
      split_ifs
      · exact .fail rfl
      · exact (ih _).bind fun _ => .pure rfl

theorem number_folded : Mirrors Error.Alike folded e.number e.folded.number := by
  have hempty : e.folded.items.isEmpty = e.items.isEmpty := List.isEmpty_map
  refine .guardFlaw (by rw [hempty]) ?_
  exact (e.numberItems_folded [] e.items).bind fun _ => .pure rfl

end Enumeration

theorem Bitfield.checkBits_folded (b : Bitfield) (seen : UInt64) (items : List BitItem) :
    Agree (b.checkBits seen items) (b.folded.checkBits seen (items.map BitItem.folded)) := by
  induction items generalizing seen with
  | nil => exact .pure rfl
  | cons i items ih =>
    have hmask : i.folded.mask = i.mask := rfl
    rw [List.map_cons, checkBits, checkBits, hmask]
    split_ifs
    · exact .fail rfl
    · exact ih _

theorem Bitfield.checkItems_folded (b : Bitfield) : Agree b.checkItems b.folded.checkItems := by
  have hempty : b.folded.items.isEmpty = b.items.isEmpty := List.isEmpty_map
  exact .guardFlaw (by rw [hempty]) (b.checkBits_folded 0 b.items)

theorem Bitfield.mask_folded (b : Bitfield) : b.folded.mask = b.mask := by
  rw [mask, mask, folded, List.foldl_map]
  rfl

theorem Enumeration.hasValue_folded (e : Enumeration) (v : Int64) :
    e.folded.hasValue v = e.hasValue v :=
  List.any_map

/-! ### Fields -/

namespace Field

variable (d : Document) (e : Entity) (f : Field)

theorem resolveReference_folded :
    Agree (f.resolveReference d e) (f.folded.resolveReference d.folded e.folded) := by
  have hreference : f.folded.reference = f.reference.map Reference.folded := rfl
  unfold resolveReference
  rw [hreference]
  cases f.reference with
  | none => exact .guardFlaw Iff.rfl (.pure rfl)
  | some r =>
    have hsource : Ident.same r.folded.sourceField f.folded.name =
        Ident.same r.sourceField f.name := Ident.same_fold ..
    refine .guardFlaw (by rw [hsource]) ?_
    refine (Mirrors.orFail (d.findEntity?_folded r.targetEntity) (by rfl)).bind fun target => ?_
    refine (Mirrors.orFail (target.field?_folded r.targetField) (by rfl)).bind fun key => ?_
    -- Whether the target is a key, and of the type, does not depend on names.
    exact .guard Iff.rfl rfl (.guardFlaw Iff.rfl (.pure rfl))

theorem resolveStruct_folded :
    Agree (f.resolveStruct d e) (f.folded.resolveStruct d.folded e.folded) := by
  have hsource : f.folded.structSource = f.structSource.map StructSource.folded := rfl
  unfold resolveStruct
  rw [hsource]
  cases f.structSource with
  | none => exact .pure rfl
  | some s =>
    refine (Mirrors.orFail (e.field?_folded s.field) (by rfl)).bind fun carrier => ?_
    refine (Mirrors.orFail (k := Reference.folded) rfl (by rfl)).bind fun r => ?_
    refine (Mirrors.orFail (d.findEntity?_folded r.targetEntity) (by rfl)).bind fun embedded => ?_
    exact .pure rfl

theorem resolveEnumeration_folded :
    Agree (f.resolveEnumeration d) (f.folded.resolveEnumeration d.folded) := by
  have hlink : f.folded.enumeration = f.enumeration.map Link.folded := rfl
  have hdefault : f.folded.defaultValue = f.defaultValue := rfl
  have hvalue (id : Handle .enumeration) (v : Int64) :
      (d.folded.enumeration? id).any (·.hasValue v) = (d.enumeration? id).any (·.hasValue v) := by
    rw [Document.enumeration?_folded]
    cases d.enumeration? id with
    | none => rfl
    | some e => exact e.hasValue_folded v
  unfold resolveEnumeration
  rw [hlink, hdefault]
  cases f.enumeration with
  | none => exact .pure rfl
  | some l =>
    refine (Mirrors.orFail (d.findEnumeration?_folded l.name) (by rfl)).bind fun found => ?_
    rcases f.defaultValue with _ | v | v | v
    case some.integer =>
      have hid : found.folded.id = found.id := rfl
      exact .guard (by rw [hid, hvalue]) rfl (.pure rfl)
    all_goals exact .pure rfl

theorem resolveBitfield_folded :
    Agree (f.resolveBitfield d) (f.folded.resolveBitfield d.folded) := by
  have hlink : f.folded.bitfield = f.bitfield.map Link.folded := rfl
  have hdefault : f.folded.defaultValue = f.defaultValue := rfl
  unfold resolveBitfield
  rw [hlink, hdefault]
  cases f.bitfield with
  | none => exact .pure rfl
  | some l =>
    refine (Mirrors.orFail (d.findBitfield?_folded l.name) (by rfl)).bind fun found => ?_
    rcases f.defaultValue with _ | v | v | v
    case some.integer => exact .guard (by rw [found.mask_folded]) rfl (.pure rfl)
    all_goals exact .pure rfl

theorem withBindings_folded (r : Option Reference.Binding) (s : Option StructSource.Binding)
    (l : Option (Handle .enumeration)) (b : Option (Handle .bitfield)) :
    f.folded.withBindings r s l b = (f.withBindings r s l b).folded := by
  simp only [withBindings, folded, Option.map_map]
  rfl

theorem bind_folded :
    Mirrors Error.Alike folded (f.bind d e) (f.folded.bind d.folded e.folded) := by
  have hsource : f.folded.structSource.isNone = f.structSource.isNone := Option.isNone_map
  refine (f.resolveReference_folded d e).bind fun r => ?_
  refine (f.resolveStruct_folded d e).bind fun s => ?_
  refine (f.resolveEnumeration_folded d).bind fun l => ?_
  refine (f.resolveBitfield_folded d).bind fun b => ?_
  refine .guardFlaw (by rw [hsource]; rfl) (.pure ?_)
  exact f.withBindings_folded r s l b

end Field

theorem Entity.bindFields_folded (d : Document) (e : Entity) :
    Mirrors Error.Alike folded (e.bindFields d) (e.folded.bindFields d.folded) :=
  (Mirrors.mapM fun f _ => (f.bind_folded d e).placed).bind fun _ => .pure rfl

theorem Document.Placed.folded {d : Document} (hd : d.Placed) : d.folded.Placed := by
  rw [← checkPlacement_eq_ok_iff (u := ())] at hd ⊢
  exact d.checkPlacement_folded.eq_ok hd

theorem Document.bindFields_folded {d : Document} (hd : d.Placed) :
    Mirrors Error.Alike folded d.bindFields d.folded.bindFields := by
  rw [bindFields_eq hd, bindFields_eq hd.folded]
  refine (Mirrors.mapM fun e _ => e.number_folded.placed).bind fun enums => ?_
  refine (Mirrors.forM fun b _ => b.checkItems_folded.placed).bind fun _ => ?_
  exact (Mirrors.mapM fun e _ => e.bindFields_folded { d with enums }).bind fun _ => .pure rfl

/-! ### Heights -/

theorem Entity.targets_folded (e : Entity) : e.folded.targets = e.targets := by
  have hentity (f : Field) : f.folded.reference.bind Reference.entity? =
      f.reference.bind Reference.entity? := Option.bind_map ..
  rw [targets, targets, folded, List.filterMap_map]
  simp only [Function.comp_def, hentity]

namespace Document

variable (d : Document)

theorem edges_folded : d.folded.edges = d.edges := by
  rw [edges, edges, folded, List.map_map]
  exact congrArg List.toArray (List.map_congr_left fun e _ => e.targets_folded)

theorem setHeights_folded : Mirrors Error.Alike folded d.setHeights d.folded.setHeights := by
  cases h : Heights.compute d.edges with
  | error cycle =>
    rw [setHeights_of_error h, setHeights_of_error (d.edges_folded ▸ h)]
    exact .fail rfl
  | ok heights =>
    rw [setHeights_of_ok h, setHeights_of_ok (d.edges_folded ▸ h)]
    refine .pure ?_
    simp only [withHeights, folded, List.zipIdx_map, List.map_map]
    rfl

end Document

/-! ### Roles -/

namespace RoleTree

variable (t : RoleTree)

theorem get?_folded (i : Handle .role) : t.folded.get? i = (t.get? i).map Role.folded :=
  List.getElem?_map ..

theorem find?_folded (name : String) : t.folded.find? (Ident.fold name) = t.find? name := by
  rw [find?, find?, folded, findIdx?_folded Role.name fun _ => rfl]

theorem hasImplicit_folded (name : String) :
    t.folded.hasImplicit (Ident.fold name) = t.hasImplicit name := by
  rw [hasImplicit, hasImplicit, find?_folded]
  cases t.find? name with
  | none => rfl
  | some i =>
    rw [Option.bind_some, Option.bind_some, get?_folded]
    cases t.get? i <;> rfl

theorem visit_folded (unreached : List (Handle .role))
    (pending : List (Option (Handle .role) × Handle .role)) :
    Agree (t.visit unreached pending) (t.folded.visit unreached pending) := by
  have hparent (role : Role) : role.folded.parent = role.parent := rfl
  have hchildren (role : Role) : role.folded.children = role.children := rfl
  fun_induction t.visit unreached pending with
  | case1 unreached =>
    rw [visit]
    exact .pure rfl
  | case2 unreached lister i pending hrole =>
    rw [visit, get?_folded, hrole]
    exact .failFlaw
  | case3 unreached lister i pending role hrole hlister =>
    rw [visit, get?_folded, hrole]
    simp only [Option.map_some, hparent, if_pos hlister]
    exact .error rfl
  | case4 unreached lister i pending role hrole hlister hmem ih =>
    rw [visit, get?_folded, hrole]
    simp only [Option.map_some, hparent, hchildren, if_neg hlister, if_pos hmem]
    exact ih
  | case5 unreached lister i pending role hrole hlister hmem =>
    rw [visit, get?_folded, hrole]
    simp only [Option.map_some, hparent, if_neg hlister, if_neg hmem]
    exact .error rfl

theorem checkForest_folded : Agree t.checkForest t.folded.checkForest := by
  have hlength : t.folded.roles.length = t.roles.length := List.length_map ..
  have hroots : t.folded.roots = t.roots := rfl
  rw [checkForest, checkForest, hlength, hroots]
  refine (t.visit_folded _ _).bind fun rest => ?_
  cases rest with
  | nil =>
    dsimp only
    split_ifs
    · exact .fail rfl
    · exact .pure rfl
  | cons i rest => exact .error rfl

theorem checkNames_folded (seen : List String) (roles : List Role) :
    Agree (checkNames seen roles) (checkNames seen (roles.map Role.folded)) := by
  induction roles generalizing seen with
  | nil => exact .pure rfl
  | cons r roles ih =>
    have himplicit : r.folded.implicit = r.implicit := rfl
    have hname : r.folded.name = Ident.fold r.name := rfl
    rw [List.map_cons, checkNames, checkNames, himplicit, hname, Ident.isReserved_fold,
      Ident.fold_fold]
    split_ifs
    · exact .placed (.fail rfl)
    · exact .placed (.fail rfl)
    · exact ih _

theorem check_folded : Agree t.check t.folded.check := by
  have hnames : implicitNames.map Ident.fold = implicitNames := by decide +kernel
  have himplicit : Agree
      (implicitNames.forM fun name =>
        if t.hasImplicit name then .ok () else failFlaw (.implicitRoleMissing name))
      (implicitNames.forM fun name =>
        if t.folded.hasImplicit name then .ok () else failFlaw (.implicitRoleMissing name)) := by
    nth_rewrite 2 [← hnames]
    refine .forM fun name _ => ?_
    rw [hasImplicit_folded]
    split_ifs
    · exact .pure rfl
    · exact .failFlaw
  exact himplicit.bind fun _ => t.checkForest_folded.bind fun _ => checkNames_folded [] t.roles

end RoleTree

/-! ### Grants -/

theorem Entity.target?_folded (e : Entity) (op : Operation) (target : String) :
    Agree (e.target? op target) (e.folded.target? op (Ident.fold target)) := by
  have hany (name : Option String) : (name.map Ident.fold).any (Ident.same · (Ident.fold target)) =
      name.any (Ident.same · target) := by
    cases name with
    | none => rfl
    | some name => exact Ident.same_fold name target
  have hsearches (kind : SearchKind) :
      (e.folded.searches.findIdx? fun s =>
        s.kind == kind && s.name.any (Ident.same · (Ident.fold target))) =
      e.searches.findIdx? fun s => s.kind == kind && s.name.any (Ident.same · target) := by
    rw [folded, List.findIdx?_map]
    exact congrArg e.searches.findIdx? (funext fun s => congrArg _ (hany s.name))
  have hmutations (us : List Mutation) :
      ((us.map Mutation.folded).findIdx? fun u =>
        u.name.any (Ident.same · (Ident.fold target))) =
      us.findIdx? fun u => u.name.any (Ident.same · target) := by
    rw [List.findIdx?_map]
    exact congrArg us.findIdx? (funext fun u => hany u.name)
  have hfields : (e.folded.fields.findIdx? fun f => Ident.same f.name (Ident.fold target)) =
      e.fields.findIdx? fun f => Ident.same f.name target :=
    findIdx?_folded Field.name (fun _ => rfl) e.fields target
  unfold target?
  cases op with
  | search | list | iterate | count => exact .orFail_self (hsearches _) rfl
  | update => exact .orFail_self (hmutations _) rfl
  | delete => exact .orFail_self (hmutations _) rfl
  | noExport => exact .orFail_self hfields rfl
  | _ => exact .fail rfl

theorem Grant.bindTarget_folded (e : Entity) (g : Grant) :
    Agree (g.bindTarget e) (g.folded.bindTarget e.folded) := by
  have htarget : g.folded.target = g.target.map Ident.fold := rfl
  have hop : g.folded.op = g.op := rfl
  rw [bindTarget, bindTarget, htarget, hop]
  cases g.op.takesTarget with
  | false =>
    cases g.target with
    | none => exact .pure rfl
    | some target => exact .failFlaw
  | true =>
    cases g.target with
    | none => exact .failFlaw
    | some target => exact (e.target?_folded g.op target).map fun _ => rfl

theorem Grant.bind_folded (t : RoleTree) (e : Entity) (g : Grant) :
    Mirrors Error.Alike folded (g.bind t e) (g.folded.bind t.folded e.folded) := by
  have hroles : Agree (g.roles.mapM fun name => orFail (t.find? name) (.unknownRole name))
      (g.folded.roles.mapM fun name => orFail (t.folded.find? name) (.unknownRole name)) :=
    .mapM_self fun name _ => .orFail_self (t.find?_folded name) rfl
  exact hroles.bind fun boundRoles => (g.bindTarget_folded e).bind fun boundTarget => .pure rfl

theorem Entity.bindGrants_folded (t : RoleTree) (e : Entity) :
    Mirrors Error.Alike folded (e.bindGrants t) (e.folded.bindGrants t.folded) :=
  (Mirrors.mapM fun g _ => (g.bind_folded t e).placed).bind fun _ => .pure rfl

namespace Document

variable (d : Document)

theorem bindGrants_folded : Mirrors Error.Alike folded d.bindGrants d.folded.bindGrants :=
  (Mirrors.mapM fun e _ => e.bindGrants_folded d.roles).bind fun _ => .pure rfl

theorem unusedRoles_folded : d.folded.unusedRoles = d.unusedRoles := by
  have hgrants (e : Entity) : e.folded.rolemap.grants.flatMap Grant.boundRoles =
      e.rolemap.grants.flatMap Grant.boundRoles := List.flatMap_map ..
  have hgranted : d.folded.grantedRoles = d.grantedRoles := by
    rw [grantedRoles, grantedRoles, folded, List.flatMap_map]
    simp only [hgrants]
  have hlength : d.folded.roles.roles.length = d.roles.roles.length := List.length_map ..
  have himplicit (i : Handle .role) : (d.folded.roles.get? i).any (!·.implicit) =
      (d.roles.get? i).any (!·.implicit) := by
    show (d.roles.folded.get? i).any _ = _
    rw [RoleTree.get?_folded]
    cases d.roles.get? i <;> rfl
  simp only [unusedRoles, RoleTree.unused, hgranted, hlength, himplicit]

end Document

/-! ### Specifications -/

namespace Path

variable (d : Document) (owner : Entity) (p : Path)

theorem walk_folded (text text' : String) (ending : Ending) (e : Entity) (names : List String) :
    Agree (walk d text ending e names)
      (walk d.folded text' ending e.folded (names.map Ident.fold)) := by
  induction names generalizing e with
  | nil => exact .pure rfl
  | cons name names ih =>
    have hnext (f : Field) : f.folded.next?.bind d.folded.entity? =
        (f.next?.bind d.entity?).map Entity.folded := by
      rw [f.next?_folded, funext d.entity?_folded, Option.map_bind]
      rfl
    rw [List.map_cons, walk, walk, List.isEmpty_map]
    refine (Mirrors.orFail (e.field?_folded name) (by rfl)).bind fun f => ?_
    by_cases hlast : names.isEmpty ∧ ending = .value
    · rw [if_pos hlast, if_pos hlast]
      exact .guardFlaw Iff.rfl (.pure rfl)
    · rw [if_neg hlast, if_neg hlast]
      exact (Mirrors.orFail (hnext f) (by rfl)).bind fun next => (ih next).bind fun _ => .pure rfl

theorem link_folded (ending : Ending) :
    Mirrors Error.Alike folded (p.link d owner ending)
      (p.folded.link d.folded owner.folded ending) := by
  have hresolve : Agree (p.resolve d owner ending)
      (p.folded.resolve d.folded owner.folded ending) := by
    have hempty : p.folded.names.isEmpty = p.names.isEmpty := List.isEmpty_map
    rw [resolve, resolve, hempty]
    split_ifs
    · exact .failFlaw
    · exact walk_folded d _ _ ending owner p.names
  exact hresolve.map fun _ => rfl

theorem linkLocal_folded :
    Mirrors Error.Alike folded (p.linkLocal d owner)
      (p.folded.linkLocal d.folded owner.folded) := by
  have hlocal : p.folded.isLocal = p.isLocal := by
    rw [isLocal, isLocal, folded, List.length_map]
  rw [linkLocal, linkLocal, hlocal]
  split_ifs
  · exact p.link_folded d owner .value
  · exact .failFlaw

theorem terminalType?_folded : p.folded.terminalType? d.folded = p.terminalType? d := by
  have hterminal : p.folded.terminal = p.terminal := rfl
  rw [terminalType?, terminalType?, hterminal]
  cases p.terminal with
  | none => rfl
  | some i =>
    rw [Option.bind_some, Option.bind_some, d.field?_folded, Option.map_map]
    rfl

theorem linkCompared_folded (op : Operator) :
    Mirrors Error.Alike folded (p.linkCompared d owner op)
      (p.folded.linkCompared d.folded owner.folded op) := by
  refine (p.link_folded d owner .value).bind fun linked => ?_
  rw [linked.terminalType?_folded d]
  cases linked.terminalType? d with
  | none => exact .pure rfl
  | some t => exact .guardFlaw Iff.rfl (.pure rfl)

theorem linkModified_folded (modifier : Modifier) :
    Mirrors Error.Alike folded (p.linkModified d owner modifier)
      (p.folded.linkModified d.folded owner.folded modifier) := by
  refine (p.linkLocal_folded d owner).bind fun linked => ?_
  rw [linked.terminalType?_folded d]
  cases linked.terminalType? d with
  | none => exact .pure rfl
  | some t => exact .guardFlaw Iff.rfl (.pure rfl)

end Path

section

variable (d : Document) (owner : Entity)

theorem Search.asksForKey_folded (p : SearchParam) :
    asksForKey d.folded p.folded = asksForKey d p := by
  have hlocal : p.folded.path.isLocal = p.path.isLocal := by
    rw [Path.isLocal, Path.isLocal]
    exact congrArg (· == 1) (List.length_map ..)
  have hkey : (p.folded.path.chain.head?.bind d.folded.field?).any Field.isUniqueKey =
      (p.path.chain.head?.bind d.field?).any Field.isUniqueKey := by
    rw [funext d.field?_folded]
    show (p.path.chain.head?.bind _).any _ = _
    cases p.path.chain.head? with
    | none => rfl
    | some i =>
      rw [Option.bind_some, Option.bind_some]
      cases d.field? i <;> rfl
  rw [asksForKey, asksForKey, hlocal, hkey]
  rfl

theorem Search.link_folded (s : Search) :
    Mirrors Error.Alike folded (s.link d owner) (s.folded.link d.folded owner.folded) := by
  have hunique (params : List SearchParam) :
      (params.map SearchParam.folded).any (asksForKey d.folded) = params.any (asksForKey d) := by
    rw [List.any_map]
    exact congrArg params.any (funext (asksForKey_folded d))
  refine (Mirrors.mapM (i := SearchParam.folded) fun p _ =>
    (p.path.linkCompared_folded d owner p.op).bind fun _ => .pure rfl).bind fun params => ?_
  refine (Mirrors.mapM (i := SortOrder.folded) fun o _ =>
    (o.path.link_folded d owner .value).bind fun _ => .pure rfl).bind fun orders => ?_
  refine (Mirrors.optionMapM (i := Aggregate.folded) fun a _ =>
    (a.path.link_folded d owner .value).bind fun _ =>
      (a.group.link_folded d owner .value).bind fun _ => .pure rfl).bind fun aggregate => ?_
  refine (Mirrors.optionMapM (i := Distinct.folded) fun x _ =>
    (x.path.link_folded d owner .entity).bind fun _ => .pure rfl).bind fun distinct => ?_
  refine .pure ?_
  rw [hunique]
  rfl

theorem Mutation.link_folded (m : Mutation) :
    Mirrors Error.Alike folded (m.link d owner) (m.folded.link d.folded owner.folded) := by
  have hempty : m.folded.modify.isEmpty = m.modify.isEmpty := List.isEmpty_map
  refine .guardFlaw (by rw [hempty]; rfl) ?_
  refine (Mirrors.mapM (i := Modification.folded) fun f _ =>
    (f.path.linkModified_folded d owner f.modifier).bind fun _ => .pure rfl).bind fun modify => ?_
  exact (Mirrors.mapM (i := RowConstraint.folded) fun c _ =>
    (c.path.linkCompared_folded d owner c.op).bind fun _ => .pure rfl).bind fun _ => .pure rfl

theorem Unique.link_folded (u : Unique) :
    Mirrors Error.Alike folded (u.link d owner) (u.folded.link d.folded owner.folded) :=
  (Mirrors.mapM fun p _ => p.linkLocal_folded d owner).bind fun _ => .pure rfl

theorem Entity.bindSpecs_folded (e : Entity) :
    Mirrors Error.Alike folded (e.bindSpecs d) (e.folded.bindSpecs d.folded) :=
  (Mirrors.mapM fun s _ => (s.link_folded d e).placed).bind fun _ =>
    (Mirrors.mapM fun u _ => (u.link_folded d e).placed).bind fun _ =>
    (Mirrors.mapM fun u _ => (u.link_folded d e).placed).bind fun _ =>
    (Mirrors.mapM fun u _ => (u.link_folded d e).placed).bind fun _ => .pure rfl

theorem Document.bindSpecs_folded : Mirrors Error.Alike folded d.bindSpecs d.folded.bindSpecs :=
  (Mirrors.mapM fun e _ => e.bindSpecs_folded d).bind fun _ => .pure rfl

end

/-! ### The link -/

namespace Document

variable (d : Document)

theorem byHeight_folded : d.folded.byHeight = d.byHeight := by
  have hheight (i : Handle .entity) : (d.folded.entity? i).elim 0 Entity.height =
      (d.entity? i).elim 0 Entity.height := by
    rw [entity?_folded]
    cases d.entity? i <;> rfl
  have hids : d.folded.entities.map Entity.id = d.entities.map Entity.id := List.map_map ..
  simp only [byHeight, hheight, hids]

theorem bindUpToRoles_folded (options : LinkOptions) :
    Mirrors Error.AlikeInPass folded (d.bindUpToRoles options)
      (d.folded.bindUpToRoles options) := by
  have hdeclarations : Agree
      (do d.checkPlacement; if options.recheck then d.checkDeclared)
      (do d.folded.checkPlacement; if options.recheck then d.folded.checkDeclared) := by
    refine d.checkPlacement_folded.bind fun _ => ?_
    split_ifs
    · exact d.checkDeclared_folded
    · exact .pure rfl
  refine (hdeclarations.inPass .declarations).bind_of_ok fun _ hok => ?_
  -- The fields are bound in documents whose handles are places only.
  obtain ⟨_, hplaced, -⟩ := bind_eq_ok.1 (inPass_eq_ok.1 hok)
  have hd : d.Placed := checkPlacement_eq_ok_iff.1 hplaced
  refine ((bindFields_folded hd).inPass .references).bind fun d => ?_
  refine (d.setHeights_folded.inPass .heights).bind fun d => ?_
  exact (d.roles.check_folded.inPass .roles).bind fun _ => .pure rfl

/-- **Folding commutes with linking**, up to the texts of errors. -/
theorem link_folded (options : LinkOptions) :
    Mirrors Error.AlikeInPass LinkedDocument.folded (d.link options) (d.folded.link options) := by
  refine (d.bindUpToRoles_folded options).bind fun d => ?_
  refine (d.bindGrants_folded.inPass .rolemaps).bind fun d => ?_
  refine (d.bindSpecs_folded.inPass .specs).bind fun linked => .pure ?_
  rw [byHeight_folded, unusedRoles_folded]
  rfl

/-- **Linking does not tell the cases of names apart.**  Two documents that differ in the case of
names only both link, with the same linked state, values, order and unused roles, or both fail, in
the same pass with causes of one variant. -/
theorem link_spelling {d d' : Document} (h : d.folded = d'.folded) (options : LinkOptions) :
    (∃ l l', d.link options = .ok l ∧ d'.link options = .ok l' ∧
        l.document.folded = l'.document.folded ∧ l.order = l'.order ∧
        l.unusedRoles = l'.unusedRoles) ∨
      ∃ e e' p, d.link options = .error e ∧ d'.link options = .error e' ∧
        e.context.bind Context.pass = some p ∧ e'.context.bind Context.pass = some p ∧
        e.cause.variant = e'.cause.variant := by
  -- Both mirror the link of the one document that they fold to.
  have hd := (d.link_folded options).ok_or_error
  have hd' := (d'.link_folded options).ok_or_error
  rw [← h] at hd'
  rcases hd with ⟨l, hl, hfolded⟩ | ⟨e, e₀, he, hfolded, halike, p, hp, hp₀⟩
  · rcases hd' with ⟨l', hl', hfolded'⟩ | ⟨_, _, _, hfolded', _⟩
    · rw [hfolded] at hfolded'
      have heq := Except.ok.inj hfolded'
      have hdocument := congrArg LinkedDocument.document heq
      have horder := congrArg LinkedDocument.order heq
      have hunused := congrArg LinkedDocument.unusedRoles heq
      exact .inl ⟨l, l', hl, hl', hdocument, horder, hunused⟩
    · rw [hfolded] at hfolded'
      cases hfolded'
  · rcases hd' with ⟨_, _, hfolded'⟩ | ⟨e', e₁, he', hfolded', halike', p', hp', hp₁⟩
    · rw [hfolded] at hfolded'
      cases hfolded'
    · rw [hfolded] at hfolded'
      obtain rfl := Except.error.inj hfolded'
      obtain rfl := Option.some.inj (hp₀.symm.trans hp₁)
      exact .inr ⟨e, e', p, he, he', hp, hp', halike.trans halike'.symm⟩

/-- Visits of persons, with every name spelled in a way of choice. -/
def visits (spell : String → String) : Document :=
  let handle (k : Handle.Kind) (i : Fin 4) : Handle k := ⟨i, Nat.lt_trans i.isLt (by decide)⟩
  let person := handle .entity 0
  let visit := handle .entity 1
  { entities :=
      [{ id := person, name := spell "person", canonical := "PERSON"
         fields :=
           [{ id := ⟨person, 0, Handle.bound_pos⟩, name := spell "badge"
              flags := { rowid := true } }]
         rolemap :=
           ⟨[{ op := .noExport, target := some (spell "badge"), roles := [spell "guard"] }]⟩ },
        { id := visit, name := spell "visit", canonical := "VISIT"
          fields :=
            [{ id := ⟨visit, 0, Handle.bound_pos⟩, name := spell "guest"
               reference := some
                { sourceField := spell "guest", targetEntity := spell "person"
                  targetField := spell "badge" } }]
          searches :=
            [{ name := some (spell "arrivals"), kind := .search
               params := [⟨⟨[spell "guest", spell "badge"], []⟩, .eq⟩] }] }]
    roles := RoleTree.initial.declare none (spell "guard") (handle .role 3) }

/-- In capitals and in small letters, the visits link alike. -/
theorem link_spelling_visits :
    (visits Ident.canonical).folded = (visits fun name => name).folded ∧
      ∃ l l', (visits Ident.canonical).link {} = .ok l ∧
        (visits fun name => name).link {} = .ok l' ∧
        l.document.folded = l'.document.folded ∧ l.order = l'.order ∧
        l.unusedRoles = l'.unusedRoles := by
  have hfolded : (visits Ident.canonical).folded = (visits fun name => name).folded := by
    simp only [visits, folded, Entity.folded, Field.folded, Reference.folded, Search.folded,
      SearchParam.folded, Path.folded, Rolemap.folded, Grant.folded, RoleTree.folded,
      RoleTree.declare, RoleTree.attach, Role.folded, List.map_cons, List.map_nil,
      List.map_append, Option.map_some, Ident.fold_canonical]
  have hlinks : ((visits fun name => name).link {}).isOk = true := by decide +kernel
  refine ⟨hfolded, ?_⟩
  rcases link_spelling hfolded {} with hok | ⟨_, e, _, _, he, _⟩
  · exact hok
  · rw [he] at hlinks
    cases hlinks

end Document

end DataModel
