import DataModel.Proofs.Linking.Authorisation
import DataModel.Proofs.Linking.DeclaredNames
import DataModel.Proofs.Safety.HeightWalk
import DataModel.Proofs.Safety.Numbers
import DataModel.Proofs.Safety.Roles
import DataModel.Snapshot

/-!
# Loading without a fault

`Watched.load_without_fault`: whatever the bytes are and whatever the options, loading a snapshot
ends without a fault, with a linked document or an error.  If an error comes from linking, the
document is torn down, and that ends without a fault as well.

A snapshot may hold any handle, any bit index and any role tree.  What each pass relies on was made
sure of by the passes before it: handles are positions and bits are in range once the declarations
were checked (`Bitfield.inRange_of_checkDeclared`), references lead to fields of the document once
they are bound (`Document.referencesBound_of_bindFields`), and the roles of a grant are roles of the
tree once it is bound (`Document.lt_length_of_bindGrants`).
-/

namespace DataModel

/-! ### What the passes make sure of -/

/-- A set whose declarations were checked has its bits in range. -/
theorem Bitfield.inRange_of_checkDeclared {b : Bitfield} (h : b.checkDeclared = .ok ()) :
    b.InRange := by
  rw [checkDeclared, bind_eq_ok] at h
  obtain ⟨_, _, hfind⟩ := h
  cases hbit : b.items.find? fun i => maxBitIndex < i.index.toNat with
  | some i =>
    rw [hbit] at hfind
    exact absurd hfind failFlaw_ne_ok
  | none =>
    intro i hi
    have hle := List.find?_eq_none.1 hbit i hi
    rw [decide_eq_true_eq, Nat.not_lt] at hle
    exact hle

namespace Document

variable {d d' : Document}

/-- A document whose declarations were checked has the bits of its sets in range. -/
theorem inRange_of_checkDeclared (h : d.checkDeclared = .ok ()) :
    ∀ b ∈ d.bitfields, b.InRange := by
  obtain ⟨_, _, _, hbitfields⟩ := checkDeclared_eq_ok_iff.1 h
  exact fun b hb => Bitfield.inRange_of_checkDeclared (hbitfields b hb)

/-- **Bound grants name roles of the tree.** -/
theorem lt_length_of_bindGrants (h : d.bindGrants = .ok d') :
    ∀ id ∈ d'.grantedRoles, id.index < d'.roles.roles.length := by
  rw [bindGrants, bind_eq_ok] at h
  obtain ⟨entities, hentities, hput⟩ := h
  obtain rfl := pure_eq_ok.1 hput
  intro id hid
  obtain ⟨e, he, g, hg, hid⟩ := mem_grantedRoles_iff.1 hid
  obtain ⟨e₀, _, hentity⟩ := exists_of_mem_mapM hentities he
  have hgrants := eq_ok_of_put (fun e : Entity => e.rolemap.grants) (fun _ => rfl) hentity
  obtain ⟨g₀, _, hbind⟩ := exists_of_mem_mapM hgrants hg
  rw [placed_eq_ok, Grant.bind, bind_eq_ok] at hbind
  obtain ⟨boundRoles, hroles, hbind⟩ := hbind
  obtain ⟨_, _, hput⟩ := bind_eq_ok.1 hbind
  obtain rfl := pure_eq_ok.1 hput
  obtain ⟨name, _, hfind⟩ := exists_of_mem_mapM hroles hid
  obtain ⟨r, hr, _⟩ := RoleTree.calls_of_find? (orFail_eq_ok.1 hfind)
  exact (List.getElem?_eq_some_iff.1 hr).1

end Document

namespace Watched

/-! ### Watched forms -/

/-- Admits a role tree. -/
def checkRoles (t : RoleTree) : Watched Error Unit := do
  of (RoleTree.implicitNames.forM fun name =>
    if t.hasImplicit name then .ok () else failFlaw (.implicitRoleMissing name))
  checkForest t
  of (RoleTree.checkNames [] t.roles)

/-- The passes before the grants. -/
def bindUpToRoles (options : LinkOptions) (d : Document) : Watched Error Document := do
  of (DataModel.inPass .declarations do
    d.checkPlacement
    if options.recheck then d.checkDeclared)
  let d ← inPass .references (bindFields d)
  let d ← inPass .heights (setHeights d)
  inPass .roles (checkRoles d.roles)
  return d

/-- All passes over a document. -/
def passes (options : LinkOptions) (d : Document) : Watched Error LinkedDocument := do
  let d ← bindUpToRoles options d
  let d ← of (DataModel.inPass .rolemaps d.bindGrants)
  let unusedRoles ← unusedRoles d
  let d ← of (DataModel.inPass .specs d.bindSpecs)
  return { document := d, order := d.byHeight, unusedRoles }

/-- Links a document. If a pass fails, the document is torn down. -/
def link (options : LinkOptions) (d : Document) : Watched Error LinkedDocument :=
  (passes options d).andThen (fun e => do let _ ← teardown d; of (.error e)) pure

/-- The linked document of a snapshot. Names are checked again whatever the options say. -/
def load (options : LinkOptions) (bytes : List UInt8) : Watched Error LinkedDocument := do
  link { options with recheck := true } (← of (Snapshot.decode bytes))

/-! ### No fault -/

variable {ε α β : Type}

/-- A step without a fault is followed by one without a fault. -/
theorem bind_eq {w : Watched ε α} {r : Except ε α} {f : α → Watched ε β} {g : α → Except ε β}
    (hw : w = of r) (hf : ∀ a, r = .ok a → f a = of (g a)) : w >>= f = of (r >>= g) := by
  rw [hw]
  cases r with
  | error e => rfl
  | ok a => exact hf a rfl

theorem checkRoles_eq (t : RoleTree) : checkRoles t = of t.check := by
  unfold checkRoles RoleTree.check
  simp only [checkForest_eq, of_bind]

variable {options : LinkOptions} {d : Document}

/-- **The passes before the grants have no fault** when the declarations are checked. -/
theorem bindUpToRoles_eq (hr : options.recheck = true) :
    bindUpToRoles options d = of (d.bindUpToRoles options) := by
  unfold bindUpToRoles Document.bindUpToRoles
  refine bind_eq rfl fun _ hchecked => ?_
  rw [inPass_eq_ok, bind_eq_ok, if_pos hr] at hchecked
  obtain ⟨_, hplacement, hdeclared⟩ := hchecked
  have hd : d.Placed := Document.checkPlacement_eq_ok_iff.1 hplacement
  have hfields := bindFields_eq (Document.inRange_of_checkDeclared hdeclared)
  refine bind_eq (by rw [hfields, inPass_of]) fun bound hbound => ?_
  rw [inPass_eq_ok] at hbound
  have hheights := setHeights_eq (Document.referencesBound_of_bindFields hd hbound)
  refine bind_eq (by rw [hheights, inPass_of]) fun high _ => ?_
  exact bind_eq (by rw [checkRoles_eq, inPass_of]) fun _ _ => rfl

theorem passes_eq (hr : options.recheck = true) : passes options d = of (d.link options) := by
  unfold passes Document.link
  refine bind_eq (bindUpToRoles_eq hr) fun high _ => ?_
  refine bind_eq rfl fun granted hgranted => ?_
  rw [inPass_eq_ok] at hgranted
  rw [unusedRoles_eq (Document.lt_length_of_bindGrants hgranted), pure_bind]
  exact bind_eq rfl fun _ _ => rfl

/-- **Linking has no fault** when the declarations are checked, whether it succeeds or not. -/
theorem link_eq (hr : options.recheck = true) : link options d = of (d.link options) := by
  rw [link, passes_eq hr]
  cases d.link options with
  | ok l => rfl
  | error e =>
    show (do let _ ← teardown d; of (.error e)) = _
    rw [teardown_eq, pure_bind]

/-- Taken on trust, a bit beyond the 63rd is a fault. -/
example :
    link .trusted
      { bitfields := [{ Bitfield.declare ⟨0, by decide⟩ "rights" with
          items := [{ name := "read", index := 64 }] }] } = stop .shift := by
  rfl

/-- **Loading has no fault.**  Whatever the bytes and the options are, it ends with a linked
document or with an error, and on its way there it indexes no list outside of it, shifts no word by
its width or more, exceeds no word, misses no vertex of a path, and goes round no loop for ever. -/
theorem load_without_fault (options : LinkOptions) (bytes : List UInt8) :
    load options bytes = of (Snapshot.load options bytes) := by
  rw [load, Snapshot.load]
  exact bind_eq rfl fun d _ => link_eq rfl

end Watched

end DataModel
