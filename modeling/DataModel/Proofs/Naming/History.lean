import DataModel.Proofs.Identifiers
import DataModel.Proofs.Linking.Relinking
import DataModel.Proofs.Naming.Scopes

/-!
# The history of names

A document is built by acts: by edits, and by linking it and opening the linked document again.  An
act that fails changes nothing.  Which names the document holds in the end depends on nothing but
the names that were asked for, and in which order.

The rule is written down for the requests alone.  `Request.refusal?` says why a request is refused
behind the requests that were granted before it, and `admitted` goes through all requests so.
`Document.lawful_of_run` says that documents obey the rule: after any acts, every list holds exactly
the names that are admitted into it, each act that asks for a name fails with the cause that the
rule gives or else succeeds, and the identifiers of the declarations are those of their names and
differ from one another.
-/

namespace DataModel

/-! ### The rule -/

/-- Why a name is refused, where others were granted before it. -/
def Request.refusal? (granted : List (Request Listing)) (q : Request Listing) : Option Cause :=
  if q.name = "" then some (.invalidDeclaration (.emptyName q.listing.scope))
  else if Ident.fold q.name ∈ Ident.reservedWords then some (.reservedName q.name)
  else if ∃ g ∈ granted, g.listing.Shares q.listing ∧ Ident.fold g.name = Ident.fold q.name then
    some (.duplicateName q.name q.listing.scope)
  else none

/-- The requests that are granted, each behind those before it. -/
def admitted (requests : List (Request Listing)) : List (Request Listing) :=
  requests.foldl (fun granted q => if (q.refusal? granted).isNone then granted ++ [q] else granted)
    []

theorem admitted_concat (requests : List (Request Listing)) (q : Request Listing) :
    admitted (requests ++ [q]) =
      if (q.refusal? (admitted requests)).isNone then admitted requests ++ [q]
      else admitted requests := by
  rw [admitted, List.foldl_append]
  rfl

/-- **The check of a name follows the rule** if the names in its scope are those that were granted
there. -/
theorem Scope.checkNew_eq {granted : List (Request Listing)} {q : Request Listing}
    {used : List String} (hused : (namesSharing granted q.listing).Perm used) :
    q.listing.scope.checkNew q.name used =
      (match q.refusal? granted with
        | some cause => fail cause
        | none => .ok ()) := by
  have hunused : used.any (Ident.same · q.name) = true ↔
      ∃ g ∈ granted, g.listing.Shares q.listing ∧ Ident.fold g.name = Ident.fold q.name := by
    simp only [List.any_eq_true, ← hused.mem_iff, mem_namesSharing, Ident.same_iff]
    constructor
    · rintro ⟨_, ⟨g, hg, hshares, rfl⟩, hfold⟩
      exact ⟨g, hg, hshares, hfold⟩
    · rintro ⟨g, hg, hshares, hfold⟩
      exact ⟨g.name, ⟨g, hg, hshares, rfl⟩, hfold⟩
  rw [Scope.checkNew, Scope.checkUnused, Request.refusal?]
  simp only [String.isEmpty_iff, Ident.isReserved_iff, hunused]
  split_ifs
  all_goals rfl

/-! ### Acts -/

/-- Something that is done to a document. -/
inductive Act
  | edit (edit : Edit)
  /-- Links the document and opens the linked document again. -/
  | relink (options : LinkOptions)

/-- The act exchanges no members of a list. -/
def Act.keepsOrder : Act → Bool
  | .edit e => e.keepsOrder
  | .relink _ => true

namespace Document

variable {d d' : Document} {before : Bool}

/-- The outcome of an act. -/
def act (d : Document) : Act → Except Refusal (Receipt × Document)
  | .edit e => d.perform e
  | .relink options => do return (.nothing, (← attempt (d.link options)).document)

/-- The document after an act, which changes nothing if it fails. -/
def after (d : Document) (act : Act) : Document :=
  match d.act act with
  | .ok (_, d') => d'
  | .error _ => d

/-- The document after some acts. -/
def run (d : Document) (acts : List Act) : Document := acts.foldl after d

/-- The name that an act asks for. -/
def asked? (d : Document) : Act → Option (Request Listing)
  | .edit e => d.request? e
  | .relink _ => none

/-- The names that some acts ask for, in turn. -/
def requests (d : Document) : List Act → List (Request Listing)
  | [] => []
  | act :: acts => (d.asked? act).toList ++ (d.after act).requests acts

theorem run_concat (acts : List Act) (act : Act) :
    d.run (acts ++ [act]) = (d.run acts).after act := by
  rw [run, List.foldl_append]
  rfl

theorem requests_concat (acts : List Act) (act : Act) :
    d.requests (acts ++ [act]) = d.requests acts ++ ((d.run acts).asked? act).toList := by
  induction acts generalizing d with
  | nil => exact List.append_nil _
  | cons first acts ih =>
    rw [List.cons_append, requests, ih, requests, List.append_assoc]
    rfl

/-- The name that an act asks for and that it is granted. -/
def granted? (d : Document) (act : Act) : Option (Request Listing) :=
  match d.act act with
  | .ok _ => d.asked? act
  | .error _ => none

end Document

/-! ### Opening a linked document again -/

/-- Linked state has no part in the naming rules. -/
theorem Entity.heading_unlinked (e : Entity) : e.unlinked.heading = e.heading := by
  have hnames : e.unlinked.names = e.names := by
    funext part
    cases part
    all_goals
      simp only [names, unlinked, beforeHeight, beforeGrants, beforeChains, List.map_map,
        List.filterMap_map]
      rfl
  rw [heading, heading, hnames]
  rfl

namespace Document

variable {d d' : Document} {before : Bool}

/-- **Linking keeps the headings.** -/
theorem headings_of_link {options : LinkOptions} {l : LinkedDocument}
    (h : d.link options = .ok l) :
    l.document.entities.map Entity.heading = d.entities.map Entity.heading ∧
      l.document.enums.map Enumeration.heading = d.enums.map Enumeration.heading ∧
      l.document.bitfields = d.bitfields := by
  obtain ⟨bound, high, granted, s⟩ := link_eq_ok_iff.1 h
  have hd : d.Placed := checkPlacement_eq_ok_iff.1 s.placement
  obtain ⟨enums, henums, _, entities, _, hbound⟩ := (bindFields_eq_ok_iff hd).1 s.fields
  obtain rfl : l.document.enums = enums := by rw [s.enums, ← hbound]
  refine ⟨?_, ?_, s.bitfields⟩
  · have hunlinked (entities : List Entity) :
        (entities.map Entity.unlinked).map Entity.heading = entities.map Entity.heading := by
      rw [List.map_map]
      exact List.map_congr_left fun e _ => e.heading_unlinked
    have hentities := congrArg Document.entities s.unlinked
    rw [unlinked, unlinked, mapEntities_entities, mapEntities_entities] at hentities
    rw [← hunlinked, hentities, hunlinked]
  · refine map_eq_of_mapM (fun e e' hnumber => ?_) henums
    obtain ⟨_, items, hitems, rfl⟩ := Enumeration.number_eq_ok_iff.1 (placed_eq_ok.1 hnumber)
    rw [Enumeration.heading, Enumeration.heading, Enumeration.names_of_numberItems hitems]

/-- **Linking asks for no name** and keeps all. -/
theorem step_of_link {options : LinkOptions} {l : LinkedDocument} (h : d.link options = .ok l) :
    d.Step true (fun _ => []) l.document := by
  obtain ⟨hentities, henums, hbitfields⟩ := headings_of_link h
  constructor
  · exact .of_eq (fun _ => rfl) hentities
  · exact .of_eq (fun _ => rfl) henums
  · exact .of_eq (fun _ => rfl) (by rw [hbitfields])

/-! ### What an act does -/

/-- **An act adds the name that it is granted**, if it is granted one, and keeps all other names. -/
theorem step_after (hd : d.Registered before) (act : Act) :
    d.Step act.keepsOrder (namesIn (d.granted? act).toList) (d.after act) := by
  cases h : d.act act with
  | error e =>
    simp only [after, granted?, h]
    exact .of_eq rfl rfl rfl
  | ok result =>
    simp only [after, granted?, h]
    cases act with
    | edit edit => exact step_of_perform hd h
    | relink options =>
      simp only [Document.act, bind_eq_ok, attempt_eq_ok, pure_eq_ok] at h
      obtain ⟨l, hl, rfl⟩ := h
      exact step_of_link hl

/-- Whether an act is granted the name that it asks for is decided by the check of the name. -/
theorem decided_of_asked (hd : d.Registered before) {act : Act} {q : Request Listing}
    (h : d.asked? act = some q) :
    Decided (q.listing.scope.checkNew q.name (d.namesInScope q.listing))
      ((d.names q.listing).length < Handle.bound) (d.act act) := by
  cases act with
  | edit edit => exact decided_of_request hd h
  | relink options => cases h

/-- **A document stays orderly** whatever is done to it. -/
theorem Orderly.after (hd : d.Orderly before) (act : Act) :
    (d.after act).Orderly (before && act.keepsOrder) := by
  refine hd.step (step_after hd.registered act) fun q hq => ?_
  rw [granted?] at hq
  split at hq
  · next result hact => exact (decided_of_asked hd.registered hq).check_eq_ok hact
  · cases hq

/-! ### Runs -/

/-- Every list has room for another name. -/
def Roomy (d : Document) : Prop := ∀ listing, (d.names listing).length < Handle.bound

/-- Names are not lost, so there was room before an act if there is room after it. -/
theorem Roomy.of_after {act : Act} (hd : d.Registered before) (h : (d.after act).Roomy) :
    d.Roomy := by
  intro listing
  have hlength := ((step_after hd act).names listing).1.length_eq
  have hafter := h listing
  rw [List.length_append] at hlength
  omega

/-- The document is orderly, and every list holds the names that were granted in it. -/
structure Holds (ordered : Bool) (granted : List (Request Listing)) (d : Document) : Prop where
  orderly : d.Orderly ordered
  names : ∀ listing, Arranged ordered (namesIn granted listing) (d.names listing)

variable {granted : List (Request Listing)} {act : Act}

theorem holds_empty : Holds true [] {} :=
  ⟨orderly_empty, fun listing => .of_eq (names_empty listing).symm⟩

/-- What an act is granted is held as well. -/
theorem Holds.after (hd : d.Holds before granted) (act : Act) :
    (d.after act).Holds (before && act.keepsOrder) (granted ++ (d.granted? act).toList) := by
  refine ⟨hd.orderly.after act, fun listing => ?_⟩
  have hadded := (step_after hd.orderly.registered act).names listing
  rw [namesIn_append]
  exact ((hd.names listing).append_right _).trans hadded

/-- **The answer to a request is that of the rule.** -/
theorem Holds.answer {q : Request Listing} (hd : d.Holds before granted) (hroom : d.Roomy)
    (hq : d.asked? act = some q) :
    match q.refusal? granted with
    | some cause => d.act act = .error (.error { cause })
    | none => ∃ answer, d.act act = .ok answer := by
  have hnames (listing : Listing) :
      (Document.names {} listing ++ namesIn granted listing).Perm (d.names listing) := by
    rw [names_empty, List.nil_append]
    exact (hd.names listing).1
  have hscope := namesInScope_perm hnames q.listing
  rw [namesInScope_empty, List.nil_append] at hscope
  have hdecided := decided_of_asked hd.orderly.registered hq
  rw [Scope.checkNew_eq hscope] at hdecided
  split
  · next cause hcause =>
    rw [hcause] at hdecided
    exact hdecided.refused _ rfl
  · next hcause =>
    rw [hcause] at hdecided
    exact hdecided.carriedOut rfl (hroom q.listing)

/-- **What the rule admits is what an act is granted.** -/
theorem Holds.admit (hd : d.Holds before (admitted granted)) (hroom : d.Roomy) (act : Act) :
    admitted (granted ++ (d.asked? act).toList) =
      admitted granted ++ (d.granted? act).toList := by
  cases hq : d.asked? act with
  | none =>
    have hnone : d.granted? act = none := by
      rw [granted?, hq]
      split <;> rfl
    rw [hnone, Option.toList_none, List.append_nil, List.append_nil]
  | some q =>
    have hanswer := hd.answer hroom hq
    rw [Option.toList_some, admitted_concat]
    split at hanswer
    · next cause hcause =>
      rw [granted?, hanswer, hcause]
      exact (List.append_nil _).symm
    · next hcause =>
      obtain ⟨answer, hanswer⟩ := hanswer
      rw [granted?, hanswer, hcause, hq]
      rfl

/-- A document is orderly after any acts. -/
theorem orderly_run (acts : List Act) : (run {} acts).Orderly (acts.all Act.keepsOrder) := by
  induction acts using List.reverseRecOn with
  | nil => exact orderly_empty
  | append_singleton acts act ih =>
    rw [run_concat, List.all_append, List.all_cons, List.all_nil, Bool.and_true]
    exact ih.after act

/-- **A document holds what the rule admits**, after any acts that leave room. -/
theorem holds_run {acts : List Act} (hroom : (run {} acts).Roomy) :
    (run {} acts).Holds (acts.all Act.keepsOrder) (admitted (requests {} acts)) := by
  induction acts using List.reverseRecOn with
  | nil => exact holds_empty
  | append_singleton acts act ih =>
    rw [run_concat] at hroom
    have hbefore := hroom.of_after (orderly_run acts).registered
    have hholds := ih hbefore
    rw [run_concat, requests_concat, hholds.admit hbefore act, List.all_append, List.all_cons,
      List.all_nil, Bool.and_true]
    exact hholds.after act

/-! ### Identifiers -/

/-- The identifiers of the declarations. -/
def canonicals (d : Document) : List String :=
  d.entities.map Entity.canonical ++ d.enums.map Enumeration.canonical ++
    d.bitfields.map Bitfield.canonical

/-- **The identifiers of the declarations are those of their names.** -/
theorem Registered.canonicals_eq (hd : d.Registered before) :
    d.canonicals = d.topLevelNames.map Ident.canonical := by
  have hcanonical {α ι : Type} {k : Handle.Kind} {see : α → Heading k ι} {l : List α}
      (hl : Heading.Registered before (l.map see)) :
      l.map (fun a => (see a).canonical) =
        (l.map fun a => (see a).name).map Ident.canonical := by
    rw [List.map_map]
    refine List.map_congr_left fun a ha => ?_
    exact hl.canonical (see a) (List.mem_map_of_mem ha)
  rw [canonicals, topLevelNames, List.map_append, List.map_append]
  exact congrArg₂ (· ++ ·) (congrArg₂ (· ++ ·) (hcanonical hd.entities) (hcanonical hd.enums))
    (hcanonical hd.bitfields)

/-- **The identifiers of the declarations differ from one another.** -/
theorem Orderly.nodup_canonicals (hd : d.Orderly before) : d.canonicals.Nodup := by
  have hfolded : (d.topLevelNames.map Ident.fold).Nodup :=
    (Scope.replays_iff.1 (hd.replays (.entity .top))).2.2
  rw [hd.registered.canonicals_eq]
  exact Ident.nodup_canonical hfolded

/-! ### The law -/

/-- The names after some acts on a new document are those of the rule. -/
structure Lawful (acts : List Act) : Prop where
  /-- Every list holds the names that are admitted into it, as they were spelled, and in the order
  of the requests unless an act exchanged members of a list. -/
  names : ∀ listing, Arranged (acts.all Act.keepsOrder)
    (namesIn (admitted (requests {} acts)) listing) ((run {} acts).names listing)
  /-- An act that asks for a name fails with the cause that the rule gives, or succeeds. -/
  answers : ∀ before act after, acts = before ++ act :: after →
    ∀ q, (run {} before).asked? act = some q →
      match q.refusal? (admitted (requests {} before)) with
      | some cause => (run {} before).act act = .error (.error { cause })
      | none => ∃ answer, (run {} before).act act = .ok answer
  /-- The identifier of a declaration is its name in upper case. -/
  canonicals : (run {} acts).canonicals = (run {} acts).topLevelNames.map Ident.canonical
  distinct : (run {} acts).canonicals.Nodup

/-- There was room before the last of some acts if there is room after them. -/
theorem Roomy.of_run {before after : List Act} (h : (run {} (before ++ after)).Roomy) :
    (run {} before).Roomy := by
  induction after using List.reverseRecOn with
  | nil => rwa [List.append_nil] at h
  | append_singleton after act ih =>
    rw [← List.append_assoc, run_concat] at h
    exact ih (h.of_after (orderly_run _).registered)

/-- **The law of names.**  Whatever is done to a new document, its names are the ones that the rule
admits of those that were asked for. -/
theorem lawful_of_run (acts : List Act) (hroom : (run {} acts).Roomy) : Lawful acts := by
  have horderly := orderly_run acts
  refine ⟨(holds_run hroom).names, fun before act after hsplit q hq => ?_,
    horderly.registered.canonicals_eq, horderly.nodup_canonicals⟩
  have hbefore : (run {} before).Roomy := by
    rw [hsplit] at hroom
    exact hroom.of_run
  exact (holds_run hbefore).answer hbefore hq

/-- Fewer than 2³² acts leave room: each adds one name at most. -/
theorem roomy_of_length {acts : List Act} (h : acts.length < Handle.bound) :
    (run {} acts).Roomy := by
  intro listing
  refine lt_of_le_of_lt ?_ h
  clear h
  induction acts using List.reverseRecOn with
  | nil =>
    rw [run, List.foldl_nil, names_empty]
    exact le_rfl
  | append_singleton acts act ih =>
    have hlength := ((step_after (orderly_run acts).registered act).names listing).1.length_eq
    have hone : (namesIn ((run {} acts).granted? act).toList listing).length ≤ 1 := by
      rw [namesIn, List.length_map]
      refine (List.length_filter_le _ _).trans ?_
      cases (run {} acts).granted? act <;> simp
    rw [List.length_append] at hlength
    rw [run_concat, List.length_append, List.length_singleton]
    omega

/-- Acts that ask for a name, for the same name in another case and as another kind, for a reserved
name, for the empty one and for a second name. -/
def spellings : List Act :=
  [.edit (.addEntity "person"), .edit (.addEnumeration "Person"), .edit (.addBitfield "SELECT"),
    .edit (.addEntity ""), .edit (.addEnumeration "Grade")]

/-- Of the five names the first and the last are held. -/
theorem lawful_of_run_spellings :
    (run {} spellings).Roomy ∧ Lawful spellings ∧
      admitted (requests {} spellings) =
        [⟨.entity .top, "person"⟩, ⟨.enumeration .top, "Grade"⟩] := by
  have hroom : (run {} spellings).Roomy := roomy_of_length (by decide)
  have hfold : Ident.fold "person" = "person" ∧ Ident.fold "Person" = "person" ∧
      Ident.fold "SELECT" = "select" ∧ Ident.fold "Grade" = "grade" := by
    decide +kernel
  have hwords : "person" ∉ Ident.reservedWords ∧ "select" ∈ Ident.reservedWords ∧
      "grade" ∉ Ident.reservedWords := by
    simp only [Ident.reservedWords, List.mem_eraseDups]
    decide +kernel
  have hrequests : requests {} spellings =
      [⟨.entity .top, "person"⟩, ⟨.enumeration .top, "Person"⟩, ⟨.bitfield .top, "SELECT"⟩,
        ⟨.entity .top, ""⟩, ⟨.enumeration .top, "Grade"⟩] := rfl
  refine ⟨hroom, lawful_of_run spellings hroom, ?_⟩
  rw [hrequests]
  simp [admitted, Request.refusal?, hfold, hwords, Listing.Shares, Listing.scope]

end Document

end DataModel
