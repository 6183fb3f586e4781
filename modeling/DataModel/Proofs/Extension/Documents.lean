import DataModel.Proofs.Naming.History
import DataModel.Proofs.Roles.Growth

/-!
# Documents that are added to

`Document.Extends` says that one document holds another and perhaps more: at the places of the old
declarations it has the same declarations, to which fields, items, specifications or children may
have been added behind the old ones.  Nothing of an old declaration differs but its height, which
may be greater.

An edit *adds* to a document (`Edit.Adds`) if it declares something, or configures what the document
did not hold at first.  Whether it does depends on two documents, the one at first and the present
one, because an edit may address an entity or a field by name.  The step lemma is
`Document.Extends.change`: a change that adds keeps what the document extends.  So whatever edits
that add lead to extends the document that they began with (`Document.extends_run`).
-/

namespace DataModel

/-! ### Lists -/

section

variable {α : Type} {R : α → α → Prop} {as bs bs' : List α} {b b' : α} {i j n : Nat}

/-- The second list has at the places of the first what the members there became; more may
follow. -/
def ExtendedBy (R : α → α → Prop) (as bs : List α) : Prop :=
  ∀ (i : Nat) (a : α), as[i]? = some a → ∃ b, bs[i]? = some b ∧ R a b

/-- Where the members stay as they are, the first list is a prefix of the second. -/
theorem extendedBy_eq_iff : ExtendedBy Eq as bs ↔ as <+: bs := by
  rw [List.prefix_iff_getElem?]
  constructor
  · intro h n hn
    obtain ⟨b, hb, rfl⟩ := h n _ (List.getElem?_eq_getElem hn)
    exact hb
  · intro h n a ha
    obtain ⟨hn, rfl⟩ := List.getElem?_eq_some_iff.1 ha
    exact ⟨_, h n hn, rfl⟩

namespace ExtendedBy

theorem refl (hR : ∀ a, R a a) : ExtendedBy R as as := fun _ a ha => ⟨a, ha, hR a⟩

variable (h : ExtendedBy R as bs)

include h

/-- More is added behind. -/
theorem append (more : List α) : ExtendedBy R as (bs ++ more) := by
  intro n a ha
  obtain ⟨b, hb, hR⟩ := h n a ha
  exact ⟨b, by rw [List.getElem?_append_left (List.getElem?_eq_some_iff.1 hb).1, hb], hR⟩

/-- A member is edited. -/
theorem set (hb : bs[n]? = some b) (hset : ∀ a, as[n]? = some a → R a b → R a b') :
    ExtendedBy R as (bs.set n b') := by
  intro m a ha
  obtain ⟨b₀, hb₀, hR⟩ := h m a ha
  by_cases hm : n = m
  · subst hm
    obtain rfl := Option.some.inj (hb₀.symm.trans hb)
    exact ⟨b', List.getElem?_set_self (List.getElem?_eq_some_iff.1 hb).1, hset a ha hR⟩
  · exact ⟨b₀, by rw [List.getElem?_set_ne hm, hb₀], hR⟩

/-- A new member is edited. -/
theorem set_new (hn : as.length ≤ n) : ExtendedBy R as (bs.set n b) := by
  intro m a ha
  obtain ⟨b₀, hb₀, hR⟩ := h m a ha
  have hm : n ≠ m := by
    have hlt := (List.getElem?_eq_some_iff.1 ha).1
    omega
  exact ⟨b₀, by rw [List.getElem?_set_ne hm, hb₀], hR⟩

/-- New members change places. -/
theorem swapAt (hi : as.length ≤ i) (hj : as.length ≤ j) (hs : swapAt bs i j = .ok bs') :
    ExtendedBy R as bs' := by
  obtain ⟨a, _, b, _, rfl⟩ := swapAt_eq_ok.1 hs
  exact (h.set_new hi).set_new hj

/-- What is found among the old members is found in its place again. -/
theorem find? {p : α → Bool} (hp : ∀ a b, R a b → p b = p a) (ha : as.find? p = some a) :
    ∃ b, bs.find? p = some b ∧ R a b := by
  obtain ⟨hpa, n, hn, rfl, hbefore⟩ := List.find?_eq_some_iff_getElem.1 ha
  obtain ⟨b, hb, hR⟩ := h n _ (List.getElem?_eq_getElem hn)
  obtain ⟨hn', rfl⟩ := List.getElem?_eq_some_iff.1 hb
  refine ⟨_, List.find?_eq_some_iff_getElem.2 ⟨?_, n, hn', rfl, fun m hm => ?_⟩, hR⟩
  · rw [hp _ _ hR, hpa]
  · obtain ⟨b, hb, hR⟩ := h m _ (List.getElem?_eq_getElem (Nat.lt_trans hm hn))
    rw [(List.getElem?_eq_some_iff.1 hb).2, hp _ _ hR]
    exact hbefore m hm

theorem findIdx? {p : α → Bool} (hp : ∀ a b, R a b → p b = p a) (hn : as.findIdx? p = some n) :
    bs.findIdx? p = some n := by
  obtain ⟨hlt, hpa, hbefore⟩ := List.findIdx?_eq_some_iff_getElem.1 hn
  -- At every place up to the one that was found, the test says what it said.
  have hsame {m : Nat} (hm : m < as.length) : ∃ hm' : m < bs.length, p bs[m] = p as[m] := by
    obtain ⟨b, hb, hR⟩ := h m _ (List.getElem?_eq_getElem hm)
    obtain ⟨hm', rfl⟩ := List.getElem?_eq_some_iff.1 hb
    exact ⟨hm', hp _ _ hR⟩
  obtain ⟨hlt', heq⟩ := hsame hlt
  refine List.findIdx?_eq_some_iff_getElem.2 ⟨hlt', heq.trans hpa, fun m hm => ?_⟩
  obtain ⟨_, heq⟩ := hsame (Nat.lt_trans hm hlt)
  rw [heq]
  exact hbefore m hm

end ExtendedBy

theorem prefix_set_new (h : as <+: bs) (hn : as.length ≤ n) : as <+: bs.set n b :=
  extendedBy_eq_iff.1 ((extendedBy_eq_iff.2 h).set_new hn)

theorem prefix_swapAt (h : as <+: bs) (hi : as.length ≤ i) (hj : as.length ≤ j)
    (hs : swapAt bs i j = .ok bs') : as <+: bs' :=
  extendedBy_eq_iff.1 ((extendedBy_eq_iff.2 h).swapAt hi hj hs)

theorem prefix_concat (h : as <+: bs) : as <+: bs ++ [b] := h.trans (List.prefix_append ..)

end

/-! ### Declarations -/

/-- The second enumeration is the first one, perhaps with more items. -/
structure Enumeration.Extends (e e' : Enumeration) : Prop where
  id : e'.id = e.id
  name : e'.name = e.name
  canonical : e'.canonical = e.canonical
  doc : e'.doc = e.doc
  items : e.items <+: e'.items

/-- The second set is the first one, perhaps with more items. -/
structure Bitfield.Extends (b b' : Bitfield) : Prop where
  id : b'.id = b.id
  name : b'.name = b.name
  canonical : b'.canonical = b.canonical
  doc : b'.doc = b.doc
  items : b.items <+: b'.items
  labelsUnset : b'.labelsUnset = b.labelsUnset
  labelsNull : b'.labelsNull = b.labelsNull

/-- The second role is the first one, perhaps with more children. -/
structure Role.Extends (r r' : Role) : Prop where
  name : r'.name = r.name
  doc : r'.doc = r.doc
  parent : r'.parent = r.parent
  children : r.children <+: r'.children
  implicit : r'.implicit = r.implicit

/-- The second tree is the first one, perhaps with more roles. -/
structure RoleTree.Extends (t t' : RoleTree) : Prop where
  roles : ExtendedBy Role.Extends t.roles t'.roles
  roots : t.roots <+: t'.roots

/-- The second entity is the first one with the same grants, perhaps with more fields and more
specifications, and perhaps higher. -/
structure Entity.Extends (e e' : Entity) : Prop where
  id : e'.id = e.id
  name : e'.name = e.name
  canonical : e'.canonical = e.canonical
  doc : e'.doc = e.doc
  fields : e.fields <+: e'.fields
  searches : e.searches <+: e'.searches
  updates : e.updates <+: e'.updates
  deletes : e.deletes <+: e'.deletes
  uniques : e.uniques <+: e'.uniques
  insert : e'.insert = e.insert
  rolemap : e'.rolemap = e.rolemap
  height : e.height ≤ e'.height

/-- **The second document holds the first one**, and perhaps more. -/
structure Document.Extends (d d' : Document) : Prop where
  entities : ExtendedBy Entity.Extends d.entities d'.entities
  enums : ExtendedBy Enumeration.Extends d.enums d'.enums
  bitfields : ExtendedBy Bitfield.Extends d.bitfields d'.bitfields
  roles : d.roles.Extends d'.roles
  languages : d.languages <+: d'.languages
  sourceFiles : d.sourceFiles <+: d'.sourceFiles

@[refl]
theorem Enumeration.Extends.refl (e : Enumeration) : e.Extends e :=
  ⟨rfl, rfl, rfl, rfl, List.prefix_rfl⟩

@[refl]
theorem Bitfield.Extends.refl (b : Bitfield) : b.Extends b :=
  ⟨rfl, rfl, rfl, rfl, List.prefix_rfl, rfl, rfl⟩

@[refl]
theorem RoleTree.Extends.refl (t : RoleTree) : t.Extends t :=
  ⟨.refl fun _ => ⟨rfl, rfl, rfl, List.prefix_rfl, rfl⟩, List.prefix_rfl⟩

@[refl]
theorem Entity.Extends.refl (e : Entity) : e.Extends e :=
  ⟨rfl, rfl, rfl, rfl, List.prefix_rfl, List.prefix_rfl, List.prefix_rfl, List.prefix_rfl,
    List.prefix_rfl, rfl, rfl, Nat.le_refl _⟩

@[refl]
theorem Document.Extends.refl (d : Document) : d.Extends d :=
  ⟨.refl Entity.Extends.refl, .refl Enumeration.Extends.refl, .refl Bitfield.Extends.refl,
    RoleTree.Extends.refl _, List.prefix_rfl, List.prefix_rfl⟩

/-! ### Edits that add -/

/-- The edit declares something in the entity `e`, or configures what `e₀` did not hold, which the
entity was at first. -/
def EntityEdit.Adds (e₀ e : Entity) : EntityEdit → Prop
  | .addField _ | .addSearch _ _ | .addUpdate _ | .addDelete _ | .addUnique _ => True
  | .onField field _ => ∀ i ∈ e.fieldIndex? field, e₀.fields.length ≤ i
  | .onSearch n _ => e₀.searches.length ≤ n
  | .onMutation (.update n) _ => e₀.updates.length ≤ n
  | .onMutation (.delete n) _ => e₀.deletes.length ≤ n
  | .setUniqueFields n _ => e₀.uniques.length ≤ n
  | .swapFields i j => e₀.fields.length ≤ i ∧ e₀.fields.length ≤ j
  | .grant _ _ _ | .setInsert _ | .setDoc _ | .setHeight _ => False

/-- The edit declares something in the document `d`, or configures what `c` did not hold, which the
document was at first. -/
def Edit.Adds (c d : Document) : Edit → Prop
  | .addEntity _ | .addEnumeration _ | .addBitfield _ | .addRole _ _ | .addLanguage _
  | .addSourceFile _ | .addEnumItem _ _ | .addBitItem _ _ _ _ _ => True
  | .setEnumDoc n _ => c.enums.length ≤ n
  | .setEnumValue n i _ => ∀ e ∈ c.enums[n]?, e.items.length ≤ i
  | .setBitfieldTexts n _ _ _ => c.bitfields.length ≤ n
  | .setRoleDoc id _ => c.roles.roles.length ≤ id.index
  | .swapEntities i j => c.entities.length ≤ i ∧ c.entities.length ≤ j
  | .swapEnumerations i j => c.enums.length ≤ i ∧ c.enums.length ≤ j
  | .swapBitfields i j => c.bitfields.length ≤ i ∧ c.bitfields.length ≤ j
  | .swapEnumItems n i j => ∀ e ∈ c.enums[n]?, e.items.length ≤ i ∧ e.items.length ≤ j
  | .onEntity ref edit =>
    ∀ i ∈ d.entityIndex? ref, ∀ e₀ ∈ c.entities[i]?, ∀ e ∈ d.entities[i]?, edit.Adds e₀ e

instance (e₀ e : Entity) : DecidablePred (EntityEdit.Adds e₀ e)
  | .addField _ | .addSearch _ _ | .addUpdate _ | .addDelete _ | .addUnique _ =>
    inferInstanceAs (Decidable True)
  | .onField field _ =>
    inferInstanceAs (Decidable (∀ i ∈ e.fieldIndex? field, e₀.fields.length ≤ i))
  | .onSearch n _ => inferInstanceAs (Decidable (e₀.searches.length ≤ n))
  | .onMutation (.update n) _ => inferInstanceAs (Decidable (e₀.updates.length ≤ n))
  | .onMutation (.delete n) _ => inferInstanceAs (Decidable (e₀.deletes.length ≤ n))
  | .setUniqueFields n _ => inferInstanceAs (Decidable (e₀.uniques.length ≤ n))
  | .swapFields i j =>
    inferInstanceAs (Decidable (e₀.fields.length ≤ i ∧ e₀.fields.length ≤ j))
  | .grant _ _ _ | .setInsert _ | .setDoc _ | .setHeight _ => inferInstanceAs (Decidable False)

instance (c d : Document) : DecidablePred (Edit.Adds c d)
  | .addEntity _ | .addEnumeration _ | .addBitfield _ | .addRole _ _ | .addLanguage _
  | .addSourceFile _ | .addEnumItem _ _ | .addBitItem _ _ _ _ _ => inferInstanceAs (Decidable True)
  | .setEnumDoc n _ => inferInstanceAs (Decidable (c.enums.length ≤ n))
  | .setEnumValue n i _ => inferInstanceAs (Decidable (∀ e ∈ c.enums[n]?, e.items.length ≤ i))
  | .setBitfieldTexts n _ _ _ => inferInstanceAs (Decidable (c.bitfields.length ≤ n))
  | .setRoleDoc id _ => inferInstanceAs (Decidable (c.roles.roles.length ≤ id.index))
  | .swapEntities i j =>
    inferInstanceAs (Decidable (c.entities.length ≤ i ∧ c.entities.length ≤ j))
  | .swapEnumerations i j =>
    inferInstanceAs (Decidable (c.enums.length ≤ i ∧ c.enums.length ≤ j))
  | .swapBitfields i j =>
    inferInstanceAs (Decidable (c.bitfields.length ≤ i ∧ c.bitfields.length ≤ j))
  | .swapEnumItems n i j =>
    inferInstanceAs (Decidable (∀ e ∈ c.enums[n]?, e.items.length ≤ i ∧ e.items.length ≤ j))
  | .onEntity ref edit =>
    inferInstanceAs (Decidable (∀ i ∈ d.entityIndex? ref, ∀ e₀ ∈ c.entities[i]?,
      ∀ e ∈ d.entities[i]?, edit.Adds e₀ e))

/-- **A change that adds to an entity keeps what it extends.** -/
theorem Entity.Extends.change {e₀ e e' : Entity} {edit : EntityEdit} (h : e₀.Extends e)
    (hadds : edit.Adds e₀ e) (hc : e.Change edit e') : e₀.Extends e' := by
  cases hc with
  -- What is declared stands behind what was there.
  | addField => exact { h with fields := prefix_concat h.fields }
  | addSearch => exact { h with searches := prefix_concat h.searches }
  | addUpdate => exact { h with updates := prefix_concat h.updates }
  | addDelete => exact { h with deletes := prefix_concat h.deletes }
  | addUnique => exact { h with uniques := prefix_concat h.uniques }
  -- What is configured stands there too.
  | onField addressed => exact { h with fields := prefix_set_new h.fields (hadds _ addressed) }
  | onSearch => exact { h with searches := prefix_set_new h.searches hadds }
  | onUpdate => exact { h with updates := prefix_set_new h.updates hadds }
  | onDelete => exact { h with deletes := prefix_set_new h.deletes hadds }
  | setUniqueFields => exact { h with uniques := prefix_set_new h.uniques hadds }
  | swapFields swapped =>
    exact { h with fields := prefix_swapAt h.fields hadds.1 hadds.2 swapped }
  | grant | setInsert | setDoc | setHeight => exact hadds.elim

/-- Allocating a role adds it, and its handle to one list of children or to the roots. -/
theorem RoleTree.Extends.allocate {t₀ t t' : RoleTree} {parent : Option (Handle .role)}
    {name : String} {id : Handle .role} (h : t₀.Extends t)
    (ha : t.allocate parent name = .ok (id, t')) : t₀.Extends t' := by
  obtain ⟨_, _, _, rfl⟩ := allocate_eq_ok.1 ha
  have hroles : ExtendedBy Role.Extends t₀.roles (t.roles ++ [({ name, parent } : Role)]) :=
    h.roles.append _
  cases parent with
  | none => exact ⟨hroles, prefix_concat h.roots⟩
  | some p =>
    -- The parent may be an old role, which gains a child behind those that it had.
    refine ⟨fun n r hr => ?_, h.roots⟩
    obtain ⟨r', hr', hR⟩ := hroles n r hr
    rw [declare, attach, List.getElem?_modify, hr', Option.map_eq_map, Option.map_some]
    split_ifs
    · exact ⟨_, rfl, { hR with children := prefix_concat hR.children }⟩
    · exact ⟨r', rfl, hR⟩

/-- Entering a text adds at most the text. -/
theorem Document.prefix_enter {table table' : List String} (h : table <+: table') (text : String) :
    table <+: (enter table' text).2 := by
  rw [enter]
  split
  · exact h
  · exact prefix_concat h

/-- **A change that adds to a document keeps what it extends.** -/
theorem Document.Extends.change {c d d' : Document} {edit : Edit} (h : c.Extends d)
    (hadds : edit.Adds c d) (hc : d.Change edit d') : c.Extends d' := by
  cases hc with
  | addEntity => exact { h with entities := h.entities.append _ }
  | addEnumeration => exact { h with enums := h.enums.append _ }
  | addBitfield => exact { h with bitfields := h.bitfields.append _ }
  | addRole allocated => exact { h with roles := h.roles.allocate allocated }
  | addLanguage => exact { h with languages := prefix_enter h.languages _ }
  | addSourceFile => exact { h with sourceFiles := prefix_enter h.sourceFiles _ }
  -- The list may be an old one; the item is new in it.
  | addEnumItem found =>
    refine { h with enums := h.enums.set found fun e₀ _ hR => ?_ }
    exact { hR with items := prefix_concat hR.items }
  | addBitItem found =>
    refine { h with bitfields := h.bitfields.set found fun b₀ _ hR => ?_ }
    exact { hR with items := prefix_concat hR.items }
  | setEnumDoc => exact { h with enums := h.enums.set_new hadds }
  | setEnumValue found =>
    refine { h with enums := h.enums.set found fun e₀ he₀ hR => ?_ }
    exact { hR with items := prefix_set_new hR.items (hadds e₀ he₀) }
  | setBitfieldTexts => exact { h with bitfields := h.bitfields.set_new hadds }
  | setRoleDoc =>
    exact { h with roles := { h.roles with roles := h.roles.roles.set_new hadds } }
  | swapEntities swapped =>
    exact { h with entities := h.entities.swapAt hadds.1 hadds.2 swapped }
  | swapEnumerations swapped => exact { h with enums := h.enums.swapAt hadds.1 hadds.2 swapped }
  | swapBitfields swapped =>
    exact { h with bitfields := h.bitfields.swapAt hadds.1 hadds.2 swapped }
  | swapEnumItems found swapped =>
    refine { h with enums := h.enums.set found fun e₀ he₀ hR => ?_ }
    have hnew := hadds e₀ he₀
    exact { hR with items := prefix_swapAt hR.items hnew.1 hnew.2 swapped }
  -- A new entity may be edited in any way, an old one where the edit adds to it.
  | onEntity addressed found edited =>
    refine { h with entities := h.entities.set found fun e₀ he₀ hR => ?_ }
    exact hR.change (hadds _ addressed e₀ he₀ _ found) (Entity.change_of_perform edited)

/-! ### Runs of edits that add -/

namespace Document

/-- The edits, one after the other from `d` on, add to what the document `c` held. -/
def AddsOnly (c : Document) : Document → List Edit → Prop
  | _, [] => True
  | d, edit :: edits => edit.Adds c d ∧ AddsOnly c (d.after (.edit edit)) edits

instance decidableAddsOnly (c : Document) :
    (d : Document) → (edits : List Edit) → Decidable (AddsOnly c d edits)
  | _, [] => inferInstanceAs (Decidable True)
  | d, edit :: edits =>
    have := decidableAddsOnly c (d.after (.edit edit)) edits
    inferInstanceAs (Decidable (edit.Adds c d ∧ AddsOnly c (d.after (.edit edit)) edits))

variable {c d : Document}

/-- An edit that adds keeps what the document extends, also where it is refused. -/
theorem Extends.after {edit : Edit} (h : c.Extends d) (hadds : edit.Adds c d) :
    c.Extends (d.after (.edit edit)) := by
  rw [Document.after, act]
  cases hp : d.perform edit with
  | ok result => exact h.change hadds (change_of_perform hp)
  | error refusal => exact h

theorem Extends.run {edits : List Edit} (h : c.Extends d) (hadds : AddsOnly c d edits) :
    c.Extends (d.run (edits.map .edit)) := by
  induction edits generalizing d with
  | nil => exact h
  | cons edit edits ih => exact ih (h.after hadds.1) hadds.2

/-- **Edits that add lead to a document that extends the one that they began with.** -/
theorem extends_run {edits : List Edit} (hadds : AddsOnly c c edits) :
    c.Extends (c.run (edits.map .edit)) :=
  Extends.run (.refl c) hadds

end Document

end DataModel
