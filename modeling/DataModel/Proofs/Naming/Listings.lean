import DataModel.Proofs.Linking.Placement
import DataModel.Proofs.Naming.Parts

/-!
# Lists of names

A document has many lists of names: the entities, the enumerations and the bit-field sets, which
share one scope, and the fields, named specifications or items that each of them owns.  A `Listing`
is one of these lists, and an edit that declares a name asks for it in one of them
(`Document.request?`).

Two facts say what an edit does to the names of a document.  If it is carried out, it adds the name
that it asks for to its list, if it asks for one, and keeps all other names
(`Document.step_of_perform`).  And whether an edit that asks for a name is carried out is decided by
the check of the name among those of its scope (`Document.decided_of_request`).
-/

namespace DataModel

/-- A list of names of a document. -/
inductive Listing
  | entity (place : Place .entity Entity.Part)
  | enumeration (place : Place .enumeration Unit)
  | bitfield (place : Place .bitfield Unit)
  deriving DecidableEq

namespace Listing

/-- The scope of the names in a list. -/
def scope : Listing → Scope
  | .entity .top | .enumeration .top | .bitfield .top => .topLevel
  | .entity (.within _ part) => part.scope
  | .enumeration (.within _ _) => .enumItem
  | .bitfield (.within _ _) => .bitItem

/-- The lists are one list, or both are in the shared scope. -/
def Shares (a b : Listing) : Prop := a = b ∨ a.scope = .topLevel ∧ b.scope = .topLevel

instance (a b : Listing) : Decidable (a.Shares b) := inferInstanceAs (Decidable (_ ∨ _))

end Listing

/-- What the naming rules see of an enumeration. -/
def Enumeration.heading (e : Enumeration) : Heading .enumeration Unit :=
  { id := e.id, name := e.name, canonical := e.canonical,
    parts := fun _ => e.items.map EnumItem.name }

/-- What the naming rules see of a bit-field set. -/
def Bitfield.heading (b : Bitfield) : Heading .bitfield Unit :=
  { id := b.id, name := b.name, canonical := b.canonical,
    parts := fun _ => b.items.map BitItem.name }

/-- The edit exchanges no members of a list. -/
def Edit.keepsOrder : Edit → Bool
  | .swapEntities _ _ | .swapEnumerations _ _ | .swapBitfields _ _ | .swapEnumItems _ _ _ => false
  | .onEntity _ edit => edit.keepsOrder
  | _ => true

namespace Document

variable {d d' : Document} {edit : Edit} {r : Receipt} {before ordered : Bool}
  {added : Listing → List String}

/-- The names in a list. -/
def names (d : Document) : Listing → List String
  | .entity p => Heading.namesAt (d.entities.map Entity.heading) p
  | .enumeration p => Heading.namesAt (d.enums.map Enumeration.heading) p
  | .bitfield p => Heading.namesAt (d.bitfields.map Bitfield.heading) p

/-- The names in the scope of a list. -/
def namesInScope (d : Document) (listing : Listing) : List String :=
  if listing.scope = .topLevel then d.topLevelNames else d.names listing

/-- The name that an edit asks for.  No name is asked for where there is nothing to own it, or with
an index that no bit has. -/
def request? (d : Document) : Edit → Option (Request Listing)
  | .addEntity name => some ⟨.entity .top, name⟩
  | .addEnumeration name => some ⟨.enumeration .top, name⟩
  | .addBitfield name => some ⟨.bitfield .top, name⟩
  | .addEnumItem n item => d.enums[n]?.map fun e => ⟨.enumeration (.within e.id ()), item.name⟩
  | .addBitItem n name index _ _ =>
    if 0 ≤ index ∧ index ≤ maxBitIndex then
      d.bitfields[n]?.map fun b => ⟨.bitfield (.within b.id ()), name⟩
    else none
  | .onEntity ref edit => do
    let e ← d.entities[← d.entityIndex? ref]?
    edit.request?.map fun q => ⟨.entity (.within e.id q.listing), q.name⟩
  | _ => none

/-- Handles are positions, if `ordered` is set in order, and identifiers are those of the names. -/
structure Registered (ordered : Bool) (d : Document) : Prop where
  entities : Heading.Registered ordered (d.entities.map Entity.heading)
  enums : Heading.Registered ordered (d.enums.map Enumeration.heading)
  bitfields : Heading.Registered ordered (d.bitfields.map Bitfield.heading)

/-- The change adds the given names to each list, and handles and identifiers stay right. -/
structure Step (ordered : Bool) (added : Listing → List String) (d d' : Document) : Prop where
  entities : Heading.Step ordered (fun p => added (.entity p)) (d.entities.map Entity.heading)
    (d'.entities.map Entity.heading)
  enums : Heading.Step ordered (fun p => added (.enumeration p))
    (d.enums.map Enumeration.heading) (d'.enums.map Enumeration.heading)
  bitfields : Heading.Step ordered (fun p => added (.bitfield p))
    (d.bitfields.map Bitfield.heading) (d'.bitfields.map Bitfield.heading)

theorem Step.names (s : Step ordered added d d') (listing : Listing) :
    Arranged ordered (d.names listing ++ added listing) (d'.names listing) := by
  cases listing with
  | entity p => exact s.entities.names p
  | enumeration p => exact s.enums.names p
  | bitfield p => exact s.bitfields.names p

theorem Step.registered (s : Step ordered added d d') (hd : d.Registered before) :
    d'.Registered (before && ordered) :=
  ⟨s.entities.registered before hd.entities, s.enums.registered before hd.enums,
    s.bitfields.registered before hd.bitfields⟩

/-- A step of the entities alone. -/
theorem Step.of_entities (request : Option (Request (Place .entity Entity.Part)))
    (h : Heading.Step ordered (namesIn request.toList) (d.entities.map Entity.heading)
      (d'.entities.map Entity.heading))
    (henums : d'.enums = d.enums) (hbitfields : d'.bitfields = d.bitfields) :
    d.Step ordered (namesIn (request.map fun q => ⟨.entity q.listing, q.name⟩).toList) d' := by
  refine ⟨?_, .of_eq (fun p => ?_) (by rw [henums]), .of_eq (fun p => ?_) (by rw [hbitfields])⟩
  · simp only [namesIn_map request (f := Listing.entity) fun _ _ => Listing.entity.inj]
    exact h
  · exact namesIn_map_of_ne request nofun
  · exact namesIn_map_of_ne request nofun

/-- A step of the enumerations alone. -/
theorem Step.of_enums (request : Option (Request (Place .enumeration Unit)))
    (h : Heading.Step ordered (namesIn request.toList) (d.enums.map Enumeration.heading)
      (d'.enums.map Enumeration.heading))
    (hentities : d'.entities = d.entities) (hbitfields : d'.bitfields = d.bitfields) :
    d.Step ordered (namesIn (request.map fun q => ⟨.enumeration q.listing, q.name⟩).toList) d' := by
  refine ⟨.of_eq (fun p => ?_) (by rw [hentities]), ?_, .of_eq (fun p => ?_) (by rw [hbitfields])⟩
  · exact namesIn_map_of_ne request nofun
  · simp only [namesIn_map request (f := Listing.enumeration) fun _ _ => Listing.enumeration.inj]
    exact h
  · exact namesIn_map_of_ne request nofun

/-- A step of the bit-field sets alone. -/
theorem Step.of_bitfields (request : Option (Request (Place .bitfield Unit)))
    (h : Heading.Step ordered (namesIn request.toList) (d.bitfields.map Bitfield.heading)
      (d'.bitfields.map Bitfield.heading))
    (hentities : d'.entities = d.entities) (henums : d'.enums = d.enums) :
    d.Step ordered (namesIn (request.map fun q => ⟨.bitfield q.listing, q.name⟩).toList) d' := by
  refine ⟨.of_eq (fun p => ?_) (by rw [hentities]), .of_eq (fun p => ?_) (by rw [henums]), ?_⟩
  · exact namesIn_map_of_ne request nofun
  · exact namesIn_map_of_ne request nofun
  · simp only [namesIn_map request (f := Listing.bitfield) fun _ _ => Listing.bitfield.inj]
    exact h

/-- Nothing changes. -/
theorem Step.of_eq (hentities : d'.entities = d.entities) (henums : d'.enums = d.enums)
    (hbitfields : d'.bitfields = d.bitfields) : d.Step ordered (fun _ => []) d' := by
  refine .of_entities none (.of_eq (fun _ => rfl) ?_) henums hbitfields
  rw [hentities]

/-! ### What an edit does -/

/-- An edit of an entity asks within it for the name that it asks the entity for. -/
theorem request?_onEntity {ref : EntityRef} {edit : EntityEdit} {i : Nat} {e : Entity}
    (hi : d.entityIndex? ref = some i) (he : d.entities[i]? = some e) :
    d.request? (.onEntity ref edit) =
      edit.request?.map fun q => ⟨.entity (.within e.id q.listing), q.name⟩ := by
  simp only [request?, hi, he, Option.bind_eq_bind, Option.bind_some]

/-- **An edit adds the name that it asks for** to its list, if it asks for one, and keeps all other
names. -/
theorem step_of_perform (hd : d.Registered before) (h : d.perform edit = .ok (r, d')) :
    d.Step edit.keepsOrder (namesIn (d.request? edit).toList) d' := by
  cases change_of_perform h with
  | @addEntity name id fresh allocated =>
    have hparts (part : Entity.Part) : (Entity.declare id name).names part = [] := by
      cases part <;> rfl
    have hdeclare : Heading.Step true _ (d.entities.map Entity.heading)
        ((d.entities ++ [Entity.declare id name]).map Entity.heading) :=
      .declare allocated rfl hparts
    exact .of_entities (some ⟨.top, name⟩) hdeclare rfl rfl
  | @addEnumeration name id fresh allocated =>
    have hdeclare : Heading.Step true _ (d.enums.map Enumeration.heading)
        ((d.enums ++ [Enumeration.declare id name]).map Enumeration.heading) :=
      .declare allocated rfl fun _ => rfl
    exact .of_enums (some ⟨.top, name⟩) hdeclare rfl rfl
  | @addBitfield name id fresh allocated =>
    have hdeclare : Heading.Step true _ (d.bitfields.map Bitfield.heading)
        ((d.bitfields ++ [Bitfield.declare id name]).map Bitfield.heading) :=
      .declare allocated rfl fun _ => rfl
    exact .of_bitfields (some ⟨.top, name⟩) hdeclare rfl rfl
  | @addEnumItem n item e found fresh =>
    have hnames : (e.items ++ [item]).map EnumItem.name =
        e.items.map EnumItem.name ++ [item.name] := List.map_append
    rw [request?, found, Option.map_some]
    refine .of_enums (some ⟨.within e.id (), item.name⟩)
      (.change (some ⟨(), item.name⟩) hd.enums found rfl fun part => .of_eq ?_) rfl rfl
    rw [Option.toList_some, namesIn_of_eq rfl]
    exact hnames.symm
  | @addBitItem n name index doc labels b found fresh inRange =>
    let item : BitItem := { name, index := UInt8.ofNat index.toNat, doc, labels }
    have hnames : (b.items ++ [item]).map BitItem.name =
        b.items.map BitItem.name ++ [name] := List.map_append
    rw [request?, if_pos inRange, found, Option.map_some]
    refine .of_bitfields (some ⟨.within b.id (), name⟩)
      (.change (some ⟨(), name⟩) hd.bitfields found rfl fun part => .of_eq ?_) rfl rfl
    rw [Option.toList_some, namesIn_of_eq rfl]
    exact hnames.symm
  | setEnumDoc found =>
    refine .of_enums none (.change none hd.enums found rfl fun part => .of_eq ?_) rfl rfl
    exact List.append_nil _
  | @setEnumValue n i value e item found foundItem =>
    have hnames : (e.items.set i { item with value }).map EnumItem.name =
        e.items.map EnumItem.name := map_set_of_eq foundItem rfl
    refine .of_enums none (.change none hd.enums found rfl fun part => .of_eq ?_) rfl rfl
    rw [Option.toList_none, namesIn_nil, List.append_nil]
    exact hnames.symm
  | setBitfieldTexts found =>
    refine .of_bitfields none (.change none hd.bitfields found rfl fun part => .of_eq ?_) rfl rfl
    exact List.append_nil _
  | swapEntities swapped =>
    exact .of_entities none (.of_perm hd.entities ((perm_of_swapAt swapped).map _)) rfl rfl
  | swapEnumerations swapped =>
    exact .of_enums none (.of_perm hd.enums ((perm_of_swapAt swapped).map _)) rfl rfl
  | swapBitfields swapped =>
    exact .of_bitfields none (.of_perm hd.bitfields ((perm_of_swapAt swapped).map _)) rfl rfl
  | swapEnumItems found swapped =>
    refine .of_enums none (.change none hd.enums found rfl fun part => .of_perm ?_) rfl rfl
    rw [Option.toList_none, namesIn_nil, List.append_nil]
    exact (perm_of_swapAt swapped).map EnumItem.name
  | @onEntity ref edit i e e' r addressed found edited =>
    have hstep := Entity.step_of_perform edited
    have hchange : Heading.Step edit.keepsOrder _ (d.entities.map Entity.heading)
        ((d.entities.set i e').map Entity.heading) :=
      .change edit.request? hd.entities found hstep.heading hstep.names
    rw [request?_onEntity addressed found]
    have hall : d.Step edit.keepsOrder _ { d with entities := d.entities.set i e' } :=
      .of_entities _ hchange rfl rfl
    rw [Option.map_map] at hall
    exact hall
  | addRole | addLanguage | addSourceFile | setRoleDoc => exact .of_eq rfl rfl rfl

/-! ### What decides -/

/-- The names that an entity owns, in a scope of their own. -/
theorem names_within_entity (hd : d.Registered before) {e : Entity} (he : e ∈ d.entities)
    (part : Entity.Part) :
    d.names (.entity (.within e.id part)) = e.names part ∧
      d.namesInScope (.entity (.within e.id part)) = e.names part := by
  have hnames : d.names (.entity (.within e.id part)) = e.names part :=
    Heading.namesAt_within hd.entities.nodup (List.mem_map_of_mem he) part
  have hscope : (Listing.entity (.within e.id part)).scope ≠ .topLevel := by
    cases part <;> nofun
  exact ⟨hnames, by rw [namesInScope, if_neg hscope, hnames]⟩

/-- The names that an enumeration owns, in a scope of their own. -/
theorem names_within_enumeration (hd : d.Registered before) {e : Enumeration} (he : e ∈ d.enums) :
    d.namesInScope (.enumeration (.within e.id ())) = e.items.map EnumItem.name :=
  Heading.namesAt_within hd.enums.nodup (List.mem_map_of_mem (f := Enumeration.heading) he) ()

/-- The names that a bit-field set owns, in a scope of their own. -/
theorem names_within_bitfield (hd : d.Registered before) {b : Bitfield} (hb : b ∈ d.bitfields) :
    d.namesInScope (.bitfield (.within b.id ())) = b.items.map BitItem.name :=
  Heading.namesAt_within hd.bitfields.nodup (List.mem_map_of_mem (f := Bitfield.heading) hb) ()

/-- **Whether a name is declared is decided by its check** among the names of its scope. -/
theorem decided_of_request (hd : d.Registered before) {q : Request Listing}
    (h : d.request? edit = some q) :
    Decided (q.listing.scope.checkNew q.name (d.namesInScope q.listing))
      ((d.names q.listing).length < Handle.bound) (d.perform edit) := by
  cases edit with
  | addEntity name =>
    obtain rfl := Option.some.inj h
    have hlength : (d.names (.entity .top)).length = d.entities.length := by
      rw [names, Heading.namesAt, List.length_map, List.length_map]
    rw [hlength]
    exact .bind (.declare Handle.exists_allocate) fun _ => ⟨_, rfl⟩
  | addEnumeration name =>
    obtain rfl := Option.some.inj h
    have hlength : (d.names (.enumeration .top)).length = d.enums.length := by
      rw [names, Heading.namesAt, List.length_map, List.length_map]
    rw [hlength]
    exact .bind (.declare Handle.exists_allocate) fun _ => ⟨_, rfl⟩
  | addBitfield name =>
    obtain rfl := Option.some.inj h
    have hlength : (d.names (.bitfield .top)).length = d.bitfields.length := by
      rw [names, Heading.namesAt, List.length_map, List.length_map]
    rw [hlength]
    exact .bind (.declare Handle.exists_allocate) fun _ => ⟨_, rfl⟩
  | addEnumItem n item =>
    obtain ⟨e, he, rfl⟩ := Option.map_eq_some_iff.1 h
    rw [names_within_enumeration hd (List.mem_of_getElem? he), perform, editAt_of_getElem? he]
    refine .bind (.bind (.bind ?_ fun _ => ⟨_, rfl⟩) fun _ => ⟨_, rfl⟩) fun _ => ⟨_, rfl⟩
    exact .attempt fun _ => ⟨_, rfl⟩
  | addBitItem n name index doc labels =>
    rw [request?] at h
    split_ifs at h with hindex
    obtain ⟨b, hb, rfl⟩ := Option.map_eq_some_iff.1 h
    rw [names_within_bitfield hd (List.mem_of_getElem? hb), perform, editAt_of_getElem? hb]
    refine .bind (.bind (.bind ?_ fun _ => ⟨_, rfl⟩) fun _ => ⟨_, rfl⟩) fun _ => ⟨_, rfl⟩
    rw [Bitfield.addItem, Bitfield.newItem, bind_assoc]
    refine .attempt fun _ => ?_
    rw [if_pos hindex]
    exact ⟨_, rfl⟩
  | onEntity ref edit =>
    simp only [request?, Option.bind_eq_bind, Option.bind_eq_some_iff] at h
    obtain ⟨i, hi, e, he, hq⟩ := h
    obtain ⟨q', hq', rfl⟩ := Option.map_eq_some_iff.1 hq
    obtain ⟨hnames, hscope⟩ := names_within_entity hd (List.mem_of_getElem? he) q'.listing
    rw [hnames, hscope, perform, hi, orMissing, ok_bind, editAt_of_getElem? he]
    refine .bind (.bind ?_ fun _ => ⟨_, rfl⟩) fun _ => ⟨_, rfl⟩
    exact Entity.decided_of_request hq'
  | _ => cases h

end Document

end DataModel
