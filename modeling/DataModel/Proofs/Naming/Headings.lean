import DataModel.Proofs.Linking.DeclaredNames
import Mathlib.Data.List.Perm.Basic

/-!
# Headings

Entities, enumerations and bit-field sets are named, stand in a list in which handles tell them
apart, and own names themselves: those of their fields, specifications or items.  Their *heading*
is what the naming rules see of them, and `namesAt` is the list of names at a *place*: the names in
the headings, or those that one of them owns.

A change of a list of headings is a *step* (`Step`) if it adds certain names at each place and loses
none, and if the headings stay registered (`Registered`): their handles are their positions and
their identifiers are those of their names.  Appending a heading (`Step.declare`), changing what one
of them owns (`Step.change`) and rearranging them (`Step.of_perm`) are steps.  It is for rearranging
that names are said to be *arranged* (`Arranged`) and not to be equal.
-/

namespace DataModel

/-! ### Lists in some order -/

/-- The same members, and if `ordered` is set, in the same order. -/
def Arranged {α : Type} (ordered : Bool) (l l' : List α) : Prop :=
  l.Perm l' ∧ (ordered = true → l = l')

namespace Arranged

variable {α : Type} {a b : Bool} {l l' m : List α}

theorem of_eq (h : l = l') : Arranged a l l' := ⟨.of_eq h, fun _ => h⟩

theorem of_perm (h : l.Perm l') : Arranged false l l' := ⟨h, nofun⟩

theorem trans (h : Arranged a l m) (h' : Arranged b m l') : Arranged (a && b) l l' := by
  refine ⟨h.1.trans h'.1, fun hab => ?_⟩
  rw [Bool.and_eq_true] at hab
  rw [h.2 hab.1, h'.2 hab.2]

theorem append_right (h : Arranged a l l') (m : List α) : Arranged a (l ++ m) (l' ++ m) :=
  ⟨h.1.append_right m, fun ha => by rw [h.2 ha]⟩

end Arranged

/-! ### Names that are asked for -/

/-- A name that is asked for in one of several lists. -/
structure Request (L : Type) where
  /-- The list. -/
  listing : L
  name : String
  deriving DecidableEq

/-- The names that are asked for in a list, in the order of the requests. -/
def namesIn {L : Type} [DecidableEq L] (requests : List (Request L)) (listing : L) : List String :=
  (requests.filter fun q => q.listing = listing).map Request.name

section namesIn

variable {L : Type} [DecidableEq L] {q : Request L} {listing : L}

@[simp]
theorem namesIn_nil : namesIn ([] : List (Request L)) listing = [] := rfl

theorem namesIn_append (requests requests' : List (Request L)) (listing : L) :
    namesIn (requests ++ requests') listing =
      namesIn requests listing ++ namesIn requests' listing := by
  rw [namesIn, List.filter_append, List.map_append, namesIn, namesIn]

theorem namesIn_of_eq (h : q.listing = listing) : namesIn [q] listing = [q.name] := by
  rw [namesIn, List.filter_cons_of_pos (by simpa using h), List.filter_nil, List.map_singleton]

theorem namesIn_of_ne (h : q.listing ≠ listing) : namesIn [q] listing = [] := by
  rw [namesIn, List.filter_cons_of_neg (by simpa using h), List.filter_nil, List.map_nil]

variable {L' : Type} [DecidableEq L'] {f : L → L'} (request : Option (Request L))

/-- A request that is sent on to another list, where each list has one of its own. -/
theorem namesIn_map (hf : Function.Injective f) (listing : L) :
    namesIn (request.map fun q => ⟨f q.listing, q.name⟩).toList (f listing) =
      namesIn request.toList listing := by
  cases request with
  | none => rfl
  | some q =>
    by_cases hq : q.listing = listing
    · exact (namesIn_of_eq (congrArg f hq)).trans (namesIn_of_eq hq).symm
    · exact (namesIn_of_ne fun heq => hq (hf heq)).trans (namesIn_of_ne hq).symm

omit [DecidableEq L] in
theorem namesIn_map_of_ne {listing : L'} (hf : ∀ l, f l ≠ listing) :
    namesIn (request.map fun q => ⟨f q.listing, q.name⟩).toList listing = [] := by
  cases request with
  | none => rfl
  | some q => exact namesIn_of_ne (hf q.listing)

end namesIn

/-! ### Headings -/

theorem Handle.allocate_eq_ok {k : Handle.Kind} {n : Nat} {id : Handle k} :
    Handle.allocate n = .ok id ↔ id.index = n := by
  rw [allocate, ← ofIndex?_eq_some_iff]
  cases ofIndex? (k := k) n with
  | none => simp
  | some id' => simp

/-- What the naming rules see of an entity, an enumeration or a bit-field set. -/
structure Heading (k : Handle.Kind) (ι : Type) where
  id : Handle k
  name : String
  canonical : String
  /-- The names in each part of it. -/
  parts : ι → List String

/-- A place for names: in the headings, or in a part of what one of them stands for. -/
inductive Place (k : Handle.Kind) (ι : Type)
  | top
  | within (owner : Handle k) (part : ι)
  deriving DecidableEq

namespace Heading

variable {k : Handle.Kind} {ι : Type} {l l' : List (Heading k ι)} {h : Heading k ι}
  {ordered before : Bool} {added : Place k ι → List String}

/-- The names at a place. -/
def namesAt (l : List (Heading k ι)) : Place k ι → List String
  | .top => l.map Heading.name
  | .within owner part => (l.find? (·.id = owner)).elim [] (·.parts part)

/-- The handles of the headings are their positions, if `ordered` is set in order, and their
identifiers are those of their names. -/
structure Registered (ordered : Bool) (l : List (Heading k ι)) : Prop where
  numbered : Arranged ordered (List.range l.length) (l.map (·.id.index))
  canonical : ∀ h ∈ l, h.canonical = Ident.canonical h.name

theorem registered_nil : Registered true ([] : List (Heading k ι)) := ⟨.of_eq rfl, nofun⟩

/-- The handles of registered headings tell them apart. -/
theorem Registered.nodup (hl : Registered before l) : (l.map Heading.id).Nodup := by
  have hindex : ((l.map Heading.id).map Handle.index).Nodup := by
    rw [List.map_map]
    exact hl.numbered.1.nodup_iff.1 List.nodup_range
  exact hindex.of_map

/-- What is registered in order holds the handle of its position. -/
theorem Registered.index_eq {α : Type} {see : α → Heading k ι} {as : List α} {a : α}
    (hl : Registered true (as.map see)) {i : Nat} (hi : as[i]? = some a) :
    (see a).id.index = i := by
  have hmap : ((as.map see).map (·.id.index))[i]? = some (see a).id.index := by
    rw [List.getElem?_map, List.getElem?_map, hi, Option.map_some, Option.map_some]
  rw [← hl.numbered.2 rfl, List.getElem?_eq_some_iff] at hmap
  obtain ⟨_, hindex⟩ := hmap
  rw [List.getElem_range] at hindex
  exact hindex.symm

/-! ### Finding a heading -/

/-- The heading of a handle, where handles tell headings apart. -/
theorem find?_id_eq_some_iff (hl : (l.map Heading.id).Nodup) {owner : Handle k} :
    l.find? (·.id = owner) = some h ↔ h ∈ l ∧ h.id = owner := by
  constructor
  · intro hfind
    exact ⟨List.mem_of_find?_eq_some hfind, by simpa using List.find?_some hfind⟩
  · rintro ⟨hh, rfl⟩
    cases hfind : l.find? (·.id = h.id) with
    | none => simpa using List.find?_eq_none.1 hfind h hh
    | some g =>
      have hg : g.id = h.id := by simpa using List.find?_some hfind
      rw [List.inj_on_of_nodup_map hl (List.mem_of_find?_eq_some hfind) hh hg]

theorem namesAt_within (hl : (l.map Heading.id).Nodup) (hh : h ∈ l) (part : ι) :
    namesAt l (.within h.id part) = h.parts part := by
  rw [namesAt, (find?_id_eq_some_iff hl).2 ⟨hh, rfl⟩, Option.elim_some]

/-- The order of headings does not matter to what each of them owns. -/
theorem namesAt_within_of_perm (hl : (l.map Heading.id).Nodup) (hp : l.Perm l') (owner : Handle k)
    (part : ι) : namesAt l (.within owner part) = namesAt l' (.within owner part) := by
  have hl' : (l'.map Heading.id).Nodup := (hp.map Heading.id).nodup_iff.1 hl
  have hfind : l.find? (·.id = owner) = l'.find? (·.id = owner) := by
    apply Option.ext
    intro h
    rw [find?_id_eq_some_iff hl, find?_id_eq_some_iff hl', hp.mem_iff]
  rw [namesAt, namesAt, hfind]

/-! ### Steps -/

/-- The change adds the given names at each place, and headings stay registered. -/
structure Step (ordered : Bool) (added : Place k ι → List String) (l l' : List (Heading k ι)) :
    Prop where
  names : ∀ p, Arranged ordered (namesAt l p ++ added p) (namesAt l' p)
  registered : ∀ before, Registered before l → Registered (before && ordered) l'

/-- Nothing changes. -/
theorem Step.of_eq (hadded : ∀ p, added p = []) (hl : l' = l) : Step ordered added l l' := by
  subst hl
  constructor
  · intro p
    rw [hadded, List.append_nil]
    exact .of_eq rfl
  · intro before hl
    exact ⟨hl.numbered.trans (.of_eq rfl), hl.canonical⟩

/-- Appending a heading that owns no names adds its name. -/
theorem Step.concat [DecidableEq ι] (hid : h.id.index = l.length)
    (hcanonical : h.canonical = Ident.canonical h.name) (hparts : ∀ i, h.parts i = []) :
    Step true (namesIn [⟨.top, h.name⟩]) l (l ++ [h]) := by
  constructor
  · intro p
    refine .of_eq ?_
    cases p with
    | top =>
      rw [namesIn_of_eq rfl]
      simp only [namesAt, List.map_append, List.map_singleton]
    | within owner part =>
      have hnone : namesIn [⟨Place.top, h.name⟩] (Place.within owner part) = [] :=
        namesIn_of_ne nofun
      rw [hnone, List.append_nil]
      simp only [namesAt, List.find?_append]
      cases l.find? (·.id = owner) with
      | some g => rfl
      | none =>
        rw [Option.none_or]
        cases hfind : [h].find? (·.id = owner) with
        | none => rfl
        | some g =>
          obtain rfl := List.mem_singleton.1 (List.mem_of_find?_eq_some hfind)
          exact (hparts part).symm
  · intro before hl
    constructor
    · have hnumbered := hl.numbered.append_right [l.length]
      rw [← List.range_succ] at hnumbered
      rwa [Bool.and_true, List.length_append, List.length_singleton, List.map_append,
        List.map_singleton, hid]
    · rw [List.forall_mem_append, List.forall_mem_singleton]
      exact ⟨hl.canonical, hcanonical⟩

/-- Changing what a heading owns adds the names that are added to its parts. -/
theorem Step.set {i : Nat} {parts : ι → List String}
    (hl : Registered before l) (hi : l[i]? = some h)
    (hparts : ∀ part, Arranged ordered (h.parts part ++ added (.within h.id part)) (parts part))
    (hothers : ∀ p, (∀ part, p ≠ .within h.id part) → added p = []) :
    Step ordered added l (l.set i { h with parts }) := by
  obtain ⟨hlt, hget⟩ := List.getElem?_eq_some_iff.1 hi
  obtain ⟨front, back, hsplit, -, hset⟩ :
      ∃ front back, l = front ++ l[i] :: back ∧ front.length = i ∧
        l.set i { h with parts } = front ++ { h with parts } :: back := List.exists_of_set hlt
  rw [hget] at hsplit
  rw [hset]
  subst hsplit
  constructor
  · intro p
    cases p with
    | top =>
      rw [hothers .top nofun, List.append_nil]
      refine .of_eq ?_
      simp only [namesAt, List.map_append, List.map_cons]
    | within owner part =>
      by_cases howner : h.id = owner
      · subst howner
        have hnodup := hl.nodup
        have hnodup' : ((front ++ { h with parts } :: back).map Heading.id).Nodup := by
          rw [List.map_append, List.map_cons] at hnodup ⊢
          exact hnodup
        have hmem (g : Heading k ι) : g ∈ front ++ g :: back :=
          List.mem_append_right _ List.mem_cons_self
        have hnew := namesAt_within hnodup' (hmem { h with parts }) part
        rw [namesAt_within hnodup (hmem h), hnew]
        exact hparts part
      · rw [hothers (.within owner part) fun part' heq => howner (Place.within.inj heq).1.symm,
          List.append_nil]
        refine .of_eq ?_
        simp only [namesAt, List.find?_append, List.find?_cons, howner, decide_false]
  · intro before' hl'
    constructor
    · have hnumbered := hl'.numbered
      rw [List.length_append, List.length_cons, List.map_append, List.map_cons] at hnumbered ⊢
      exact hnumbered.trans (.of_eq rfl)
    · have hcanonical := hl'.canonical
      rw [List.forall_mem_append, List.forall_mem_cons] at hcanonical ⊢
      exact hcanonical

/-- **Rearranging the headings** adds no name. -/
theorem Step.of_perm (hl : Registered before l) (hp : l.Perm l') :
    Step false (fun _ => []) l l' := by
  constructor
  · intro p
    rw [List.append_nil]
    cases p with
    | top => exact .of_perm (hp.map Heading.name)
    | within owner part => exact .of_eq (namesAt_within_of_perm hl.nodup hp owner part)
  · intro before' hl'
    rw [Bool.and_false]
    constructor
    · rw [← hp.length_eq]
      exact .of_perm (hl'.numbered.1.trans (hp.map _))
    · intro h hh
      exact hl'.canonical h (hp.mem_iff.2 hh)

section

variable [DecidableEq ι] {α : Type} {see : α → Heading k ι} {as : List α} {a a' : α}

/-- **A declaration** at the end of a list adds its name. -/
theorem Step.declare (hid : Handle.allocate as.length = .ok (see a).id)
    (hcanonical : (see a).canonical = Ident.canonical (see a).name)
    (hparts : ∀ i, (see a).parts i = []) :
    Step true (namesIn [⟨.top, (see a).name⟩]) (as.map see) ((as ++ [a]).map see) := by
  rw [List.map_append, List.map_singleton]
  refine .concat ?_ hcanonical hparts
  rw [List.length_map]
  exact Handle.allocate_eq_ok.1 hid

/-- **A change of what a declaration owns** adds the name that it is asked for. -/
theorem Step.change (request : Option (Request ι)) (hl : Registered before (as.map see)) {i : Nat}
    (ha : as[i]? = some a) (hsee : see a' = { see a with parts := (see a').parts })
    (hparts : ∀ part, Arranged ordered ((see a).parts part ++ namesIn request.toList part)
      ((see a').parts part)) :
    Step ordered (namesIn (request.map fun q => ⟨.within (see a).id q.listing, q.name⟩).toList)
      (as.map see) ((as.set i a').map see) := by
  have hi : (as.map see)[i]? = some (see a) := by
    rw [List.getElem?_map, ha, Option.map_some]
  have hinjective : Function.Injective (Place.within (see a).id : ι → Place k ι) :=
    fun part part' heq => (Place.within.inj heq).2
  rw [List.map_set, hsee]
  refine .set hl hi (fun part => ?_) fun p hp => ?_
  · rw [namesIn_map request hinjective]
    exact hparts part
  · exact namesIn_map_of_ne request fun part heq => hp part heq.symm

end

end Heading

end DataModel
