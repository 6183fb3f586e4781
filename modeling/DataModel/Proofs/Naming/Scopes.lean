import DataModel.Proofs.Naming.Listings

/-!
# The names of a scope

Some lists of names share their scope.  What is added to the lists is added to the scopes
(`Document.namesInScope_perm`), and a name that is added was checked among the names of its scope.
So the names of every scope replay, whatever was done to the document: it is *orderly*
(`Document.Orderly.perform`).
-/

namespace DataModel

namespace Scope

variable {scope : Scope} {names names' : List String}

/-- Names replay in any order. -/
theorem Replays.perm (h : scope.Replays names) (hp : names.Perm names') : scope.Replays names' := by
  obtain ⟨hempty, hreserved, hnodup⟩ := replays_iff.1 h
  refine replays_iff.2 ⟨?_, ?_, (hp.map Ident.fold).nodup_iff.1 hnodup⟩
  · rwa [← hp.mem_iff]
  · intro name hname
    exact hreserved name (hp.mem_iff.2 hname)

end Scope

/-- The names that are asked for in the scope of a list. -/
def namesSharing (requests : List (Request Listing)) (listing : Listing) : List String :=
  (requests.filter fun q => q.listing.Shares listing).map Request.name

theorem namesSharing_append (requests requests' : List (Request Listing)) (listing : Listing) :
    namesSharing (requests ++ requests') listing =
      namesSharing requests listing ++ namesSharing requests' listing := by
  rw [namesSharing, List.filter_append, List.map_append, namesSharing, namesSharing]

theorem mem_namesSharing {requests : List (Request Listing)} {listing : Listing} {name : String} :
    name ∈ namesSharing requests listing ↔
      ∃ q ∈ requests, q.listing.Shares listing ∧ q.name = name := by
  simp only [namesSharing, List.mem_map, List.mem_filter, decide_eq_true_eq, and_assoc]

theorem namesSharing_of_shares {q : Request Listing} {listing : Listing}
    (h : q.listing.Shares listing) : namesSharing [q] listing = [q.name] := by
  rw [namesSharing, List.filter_cons_of_pos (by simpa using h), List.filter_nil,
    List.map_singleton]

theorem namesSharing_of_not_shares {q : Request Listing} {listing : Listing}
    (h : ¬q.listing.Shares listing) : namesSharing [q] listing = [] := by
  rw [namesSharing, List.filter_cons_of_neg (by simpa using h), List.filter_nil, List.map_nil]

/-- In a scope of its own, a list is asked for the names that its scope is asked for. -/
theorem namesSharing_of_ne {listing : Listing} (h : listing.scope ≠ .topLevel)
    (requests : List (Request Listing)) :
    namesSharing requests listing = namesIn requests listing := by
  have hshares (q : Request Listing) : q.listing.Shares listing ↔ q.listing = listing := by
    constructor
    · rintro (heq | ⟨-, htop⟩)
      · exact heq
      · exact absurd htop h
    · exact .inl
  simp only [namesSharing, namesIn, hshares]

/-- The lists of the shared scope are the three of the declarations. -/
theorem Listing.scope_eq_topLevel_iff {listing : Listing} : listing.scope = .topLevel ↔
    listing = .entity .top ∨ listing = .enumeration .top ∨ listing = .bitfield .top := by
  constructor
  · intro h
    cases listing with
    | entity p =>
      cases p with
      | top => exact .inl rfl
      | within owner part => cases part <;> cases h
    | enumeration p =>
      cases p with
      | top => exact .inr (.inl rfl)
      | within owner part => cases h
    | bitfield p =>
      cases p with
      | top => exact .inr (.inr rfl)
      | within owner part => cases h
  · rintro (rfl | rfl | rfl) <;> rfl

/-- The shared scope is asked for what its three lists are asked for. -/
theorem namesSharing_perm {listing : Listing} (h : listing.scope = .topLevel)
    (requests : List (Request Listing)) :
    (namesIn requests (.entity .top) ++ namesIn requests (.enumeration .top) ++
      namesIn requests (.bitfield .top)).Perm (namesSharing requests listing) := by
  refine List.perm_iff_count.2 fun name => ?_
  -- One request is counted once on the left if it is for one of the three lists, and else not.
  have hone (q : Request Listing) :
      namesIn [q] (.entity .top) ++ namesIn [q] (.enumeration .top) ++
        namesIn [q] (.bitfield .top) = namesSharing [q] listing := by
    by_cases htop : q.listing.scope = .topLevel
    · rw [namesSharing_of_shares (.inr ⟨htop, h⟩)]
      rcases Listing.scope_eq_topLevel_iff.1 htop with hq | hq | hq
      all_goals simp [namesIn, hq]
    · have hne (l : Listing) (hl : l.scope = .topLevel) : q.listing ≠ l := by
        rintro rfl
        exact htop hl
      have hshares : ¬q.listing.Shares listing := by
        rintro (heq | ⟨hq, -⟩)
        · exact hne listing h heq
        · exact htop hq
      rw [namesSharing_of_not_shares hshares, namesIn_of_ne (hne _ rfl), namesIn_of_ne (hne _ rfl),
        namesIn_of_ne (hne _ rfl)]
      rfl
  induction requests with
  | nil => rfl
  | cons q requests ih =>
    have hcount := congrArg (List.count name) (hone q)
    rw [← List.singleton_append, namesIn_append, namesIn_append, namesIn_append,
      namesSharing_append]
    simp only [List.count_append] at *
    omega

namespace Document

variable {d d' : Document} {requests : List (Request Listing)}

/-- **What is added to the lists is added to the scopes.** -/
theorem namesInScope_perm
    (h : ∀ listing, (d.names listing ++ namesIn requests listing).Perm (d'.names listing))
    (listing : Listing) :
    (d.namesInScope listing ++ namesSharing requests listing).Perm (d'.namesInScope listing) := by
  by_cases htop : listing.scope = .topLevel
  · have hentities := h (.entity .top)
    have henums := h (.enumeration .top)
    have hbitfields := h (.bitfield .top)
    have hsharing := namesSharing_perm htop requests
    have hnames (d : Document) : d.topLevelNames =
        d.names (.entity .top) ++ d.names (.enumeration .top) ++ d.names (.bitfield .top) := by
      simp only [topLevelNames, names, Heading.namesAt, List.map_map]
      rfl
    rw [namesInScope, namesInScope, if_pos htop, if_pos htop, hnames, hnames]
    rw [List.perm_iff_count] at *
    intro name
    have hentities := hentities name
    have henums := henums name
    have hbitfields := hbitfields name
    have hsharing := hsharing name
    simp only [List.count_append] at *
    omega
  · rw [namesInScope, namesInScope, if_neg htop, if_neg htop, namesSharing_of_ne htop]
    exact h listing

/-! ### Orderly documents -/

/-- Handles are positions, if `ordered` is set in order, identifiers are those of the names, and the
names of every scope replay. -/
structure Orderly (ordered : Bool) (d : Document) : Prop where
  registered : d.Registered ordered
  replays : ∀ listing : Listing, listing.scope.Replays (d.namesInScope listing)

theorem names_empty (listing : Listing) : names {} listing = [] := by
  cases listing with
  | entity p => cases p <;> rfl
  | enumeration p => cases p <;> rfl
  | bitfield p => cases p <;> rfl

theorem namesInScope_empty (listing : Listing) : namesInScope {} listing = [] := by
  rw [namesInScope, names_empty]
  exact ite_self _

theorem orderly_empty : Orderly true {} := by
  refine ⟨⟨Heading.registered_nil, Heading.registered_nil, Heading.registered_nil⟩, ?_⟩
  intro listing
  rw [namesInScope_empty]
  exact Scope.replays_iff.2 ⟨List.not_mem_nil, nofun, List.nodup_nil⟩

variable {before ordered : Bool}

/-- **A step to a name that was checked** keeps a document orderly. -/
theorem Orderly.step {request : Option (Request Listing)} (hd : d.Orderly before)
    (s : d.Step ordered (namesIn request.toList) d')
    (hchecked : ∀ q ∈ request,
      q.listing.scope.checkNew q.name (d.namesInScope q.listing) = .ok ()) :
    d'.Orderly (before && ordered) := by
  refine ⟨s.registered hd.registered, fun listing => ?_⟩
  have hperm := namesInScope_perm (fun l => (s.names l).1) listing
  refine Scope.Replays.perm ?_ hperm
  cases request with
  | none =>
    rw [show namesSharing (none : Option (Request Listing)).toList listing = [] from rfl,
      List.append_nil]
    exact hd.replays listing
  | some q =>
    have hcheck := hchecked q rfl
    by_cases hshares : q.listing.Shares listing
    · rw [Option.toList_some, namesSharing_of_shares hshares, Scope.replays_concat]
      refine ⟨hd.replays listing, ?_⟩
      -- What shares a scope is checked alike.
      rcases hshares with heq | ⟨hq, hlisting⟩
      · rwa [heq] at hcheck
      · rw [namesInScope, if_pos hq, hq] at hcheck
        rwa [namesInScope, if_pos hlisting, hlisting]
    · rw [Option.toList_some, namesSharing_of_not_shares hshares, List.append_nil]
      exact hd.replays listing

/-- **A document stays orderly** whatever is done to it. -/
theorem Orderly.perform {edit : Edit} {r : Receipt} (hd : d.Orderly before)
    (h : d.perform edit = .ok (r, d')) : d'.Orderly (before && edit.keepsOrder) := by
  refine hd.step (step_of_perform hd.registered h) fun q hq => ?_
  exact (decided_of_request hd.registered hq).check_eq_ok h

end Document

end DataModel
