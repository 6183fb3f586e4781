import DataModel.Proofs.Extension.Documents
import DataModel.Proofs.Linking.BoundPaths

/-!
# What is bound stays bound

A step of linking that succeeds on a declaration succeeds, with the same result, on the declaration
in a document that holds it and more: a field (`Field.bind_extends`), a grant
(`Grant.bind_extends`), and the specifications (`Search.link_extends`, `Mutation.link_extends`,
`Unique.link_extends`).

The reason is the same for all of them.  A look-up returns the first match, and what is added stands
behind what was there, so a look-up that succeeded finds in the larger list what it found before.
No step asks whether something is absent.  The two checks of a default that look at all items of a
list, `Enumeration.hasValue` and the mask of a bit-field set, admit more with more items.
-/

namespace DataModel

section

variable {α β : Type} {f f' : α → Except Error β} {as as' : List α} {bs bs' : List β}

/-- Where every step that succeeds does so in the other computation too, the list does. -/
theorem mapM_of_ok (hf : ∀ a ∈ as, ∀ b, f a = .ok b → f' a = .ok b) (hm : as.mapM f = .ok bs) :
    as.mapM f' = .ok bs := by
  rw [mapM_eq_ok] at hm ⊢
  have hmem := (List.forall₂_and_left (p := (· ∈ as)) _ _).2 ⟨fun a ha => ha, hm⟩
  exact hmem.imp fun a b h => hf a h.1 b h.2

/-- What is found for more members begins with what was found for the first ones. -/
theorem mapM_prefix (h : as <+: as') (hf : ∀ a ∈ as, ∀ b, f a = .ok b → f' a = .ok b)
    (hm : as.mapM f = .ok bs) (hm' : as'.mapM f' = .ok bs') : bs <+: bs' := by
  obtain ⟨more, rfl⟩ := h
  rw [List.mapM_append, bind_eq_ok] at hm'
  obtain ⟨bs₀, hbs₀, hm'⟩ := hm'
  obtain ⟨found, _, hput⟩ := bind_eq_ok.1 hm'
  obtain rfl := Except.ok.inj (hbs₀.symm.trans (mapM_of_ok hf hm))
  rw [← pure_eq_ok.1 hput]
  exact List.prefix_append ..

theorem option_mapM_of_ok (hf : ∀ a b, f a = .ok b → f' a = .ok b) {o : Option α} {o' : Option β}
    (hm : o.mapM f = .ok o') : o.mapM f' = .ok o' := by
  have hmap := option_mapM_map_of_ok (g := id) (k := id) hf hm
  rwa [Option.map_id, Option.map_id] at hmap

end

/-! ### Look-ups -/

section

variable {d d' : Document} {e e' : Entity}

namespace Document.Extends

variable (h : d.Extends d')

include h

theorem entity? {id : Handle .entity} (he : d.entity? id = some e) :
    ∃ e', d'.entity? id = some e' ∧ e.Extends e' :=
  h.entities _ _ he

theorem enumeration? {id : Handle .enumeration} {n : Enumeration}
    (hn : d.enumeration? id = some n) : ∃ n', d'.enumeration? id = some n' ∧ n.Extends n' :=
  h.enums _ _ hn

theorem field? {id : FieldId} {f : Field} (hf : d.field? id = some f) : d'.field? id = some f := by
  obtain ⟨e, he, hf⟩ := Option.bind_eq_some_iff.1 hf
  obtain ⟨e', he', hR⟩ := h.entity? he
  obtain ⟨f, hf', rfl⟩ := extendedBy_eq_iff.2 hR.fields _ _ hf
  exact Option.bind_eq_some_iff.2 ⟨e', he', hf'⟩

theorem findEntity? {name : String} (he : d.findEntity? name = some e) :
    ∃ e', d'.findEntity? name = some e' ∧ e.Extends e' :=
  h.entities.find? (fun _ _ hR => by rw [hR.name]) he

theorem findEnumeration? {name : String} {n : Enumeration}
    (hn : d.findEnumeration? name = some n) :
    ∃ n', d'.findEnumeration? name = some n' ∧ n.Extends n' :=
  h.enums.find? (fun _ _ hR => by rw [hR.name]) hn

theorem findBitfield? {name : String} {b : Bitfield} (hb : d.findBitfield? name = some b) :
    ∃ b', d'.findBitfield? name = some b' ∧ b.Extends b' :=
  h.bitfields.find? (fun _ _ hR => by rw [hR.name]) hb

end Document.Extends

theorem Entity.Extends.field? (h : e.Extends e') {name : String} {f : Field}
    (hf : e.field? name = some f) : e'.field? name = some f :=
  h.fields.find?_eq_some hf

theorem RoleTree.Extends.find? {t t' : RoleTree} (h : t.Extends t') {name : String}
    {id : Handle .role} (hid : t.find? name = some id) : t'.find? name = some id := by
  obtain ⟨n, hn, hid⟩ := Option.bind_eq_some_iff.1 hid
  exact Option.bind_eq_some_iff.2 ⟨n, h.roles.findIdx? (fun _ _ hR => by rw [hR.name]) hn, hid⟩

/-- More items have more values. -/
theorem Enumeration.Extends.hasValue {n n' : Enumeration} (h : n.Extends n') {v : Int64}
    (hv : n.hasValue v = true) : n'.hasValue v = true := by
  obtain ⟨i, hi, hv⟩ := List.any_eq_true.1 hv
  exact List.any_eq_true.2 ⟨i, h.items.subset hi, hv⟩

theorem UInt64.not_or (a b : UInt64) : ~~~(a ||| b) = ~~~a &&& ~~~b := by
  apply UInt64.eq_of_toBitVec_eq
  rw [UInt64.toBitVec_not, UInt64.toBitVec_or, UInt64.toBitVec_and, UInt64.toBitVec_not,
    UInt64.toBitVec_not, BitVec.not_or]

/-- More items have more bits. -/
theorem Bitfield.Extends.mask {b b' : Bitfield} (h : b.Extends b') {v : UInt64}
    (hv : v &&& ~~~b.mask = 0) : v &&& ~~~b'.mask = 0 := by
  obtain ⟨more, hmore⟩ := h.items
  rw [Bitfield.mask, ← hmore, List.foldl_append]
  rw [Bitfield.mask] at hv
  -- Item by item, the bits of the value stay within those that were gathered.
  generalize b.items.foldl (fun m i => m ||| i.mask) 0 = m at hv
  clear hmore
  induction more generalizing m with
  | nil => exact hv
  | cons i more ih =>
    rw [List.foldl_cons]
    refine ih _ ?_
    rw [UInt64.not_or, ← UInt64.and_assoc, hv, UInt64.zero_and]

/-! ### Fields -/

namespace Field

variable {f f' : Field} (h : d.Extends d')

include h

theorem resolveReference_extends {o : Option Reference.Binding}
    (hf : f.resolveReference d e = .ok o) : f.resolveReference d' e' = .ok o := by
  cases hr : f.reference with
  | none =>
    rw [resolveReference_none hr] at hf ⊢
    exact hf
  | some r =>
    obtain ⟨hsource, target, htarget, key, hkey, hfits⟩ := (resolveReference_some hr).1 hf
    obtain ⟨target', htarget', hR⟩ := h.findEntity? htarget
    exact (resolveReference_some hr).2 ⟨hsource, target', htarget', key, hR.field? hkey, hfits⟩

theorem resolveStruct_extends (he : e.Extends e') {o : Option StructSource.Binding}
    (hf : f.resolveStruct d e = .ok o) : f.resolveStruct d' e' = .ok o := by
  cases hs : f.structSource with
  | none =>
    rw [resolveStruct_none hs] at hf ⊢
    exact hf
  | some s =>
    obtain ⟨carrier, hcarrier, r, hr, embedded, hembedded, rfl⟩ := (resolveStruct_some hs).1 hf
    obtain ⟨embedded', hembedded', hR⟩ := h.findEntity? hembedded
    refine (resolveStruct_some hs).2 ⟨carrier, he.field? hcarrier, r, hr, embedded', hembedded', ?_⟩
    rw [hR.id]

theorem resolveEnumeration_extends {o : Option (Handle .enumeration)}
    (hf : f.resolveEnumeration d = .ok o) : f.resolveEnumeration d' = .ok o := by
  cases hl : f.enumeration with
  | none =>
    rw [resolveEnumeration_none hl] at hf ⊢
    exact hf
  | some l =>
    obtain ⟨n, hn, hvalue, rfl⟩ := (resolveEnumeration_some hl).1 hf
    obtain ⟨n', hn', hR⟩ := h.findEnumeration? hn
    refine (resolveEnumeration_some hl).2 ⟨n', hn', fun v hv => ?_, by rw [hR.id]⟩
    -- The values are looked up under the handle, in the same place of both documents.
    obtain ⟨m, hm, hmv⟩ := (Option.any_eq_true _ _).1 (hvalue v hv)
    obtain ⟨m', hm', hRm⟩ := h.enumeration? hm
    rw [hR.id, hm', Option.any_some]
    exact hRm.hasValue hmv

theorem resolveBitfield_extends {o : Option (Handle .bitfield)}
    (hf : f.resolveBitfield d = .ok o) : f.resolveBitfield d' = .ok o := by
  cases hl : f.bitfield with
  | none =>
    rw [resolveBitfield_none hl] at hf ⊢
    exact hf
  | some l =>
    obtain ⟨b, hb, hbits, rfl⟩ := (resolveBitfield_some hl).1 hf
    obtain ⟨b', hb', hR⟩ := h.findBitfield? hb
    refine (resolveBitfield_some hl).2 ⟨b', hb', fun v hv => hR.mask (hbits v hv), by rw [hR.id]⟩

/-- **A field that is bound is bound alike where there is more.** -/
theorem bind_extends (he : e.Extends e') (hf : f.bind d e = .ok f') : f.bind d' e' = .ok f' := by
  obtain ⟨reference, hreference, source, hsource, enumeration, henumeration, bitfield, hbitfield,
    hstruct⟩ := bind_eq_ok_iff.1 hf
  exact bind_eq_ok_iff.2 ⟨reference, resolveReference_extends h hreference, source,
    resolveStruct_extends h he hsource, enumeration, resolveEnumeration_extends h henumeration,
    bitfield, resolveBitfield_extends h hbitfield, hstruct⟩

end Field

/-! ### Grants -/

/-- The target of a grant is found in the same place. -/
theorem Entity.Extends.target? (h : e.Extends e') {op : Operation} {target : String} {n : Nat}
    (hn : e.target? op target = .ok n) : e'.target? op target = .ok n := by
  unfold Entity.target? at hn ⊢
  split at hn
  · rw [orFail_eq_ok] at hn ⊢
    exact h.searches.findIdx?_eq_some hn
  · rw [orFail_eq_ok] at hn ⊢
    exact h.updates.findIdx?_eq_some hn
  · rw [orFail_eq_ok] at hn ⊢
    exact h.deletes.findIdx?_eq_some hn
  · rw [orFail_eq_ok] at hn ⊢
    exact h.fields.findIdx?_eq_some hn
  · exact absurd hn fail_ne_ok

/-- **A grant that is bound is bound alike where there is more.** -/
theorem Grant.bind_extends {t t' : RoleTree} (ht : t.Extends t') (h : e.Extends e') {g g' : Grant}
    (hg : g.bind t e = .ok g') : g.bind t' e' = .ok g' := by
  obtain ⟨roles, hroles, hg⟩ := bind_eq_ok.1 hg
  obtain ⟨target, htarget, hput⟩ := bind_eq_ok.1 hg
  refine bind_eq_ok.2 ⟨roles, ?_, bind_eq_ok.2 ⟨target, ?_, hput⟩⟩
  · refine mapM_of_ok (fun name _ id hid => ?_) hroles
    rw [orFail_eq_ok] at hid ⊢
    exact ht.find? hid
  · unfold bindTarget at htarget ⊢
    split at htarget
    · exact htarget
    · exact absurd htarget failFlaw_ne_ok
    · exact absurd htarget failFlaw_ne_ok
    · obtain ⟨n, hn, rfl⟩ := map_eq_ok.1 htarget
      exact map_eq_ok.2 ⟨n, h.target? hn, rfl⟩

/-! ### Paths -/

namespace Path

variable {p p' : Path} {ending : Ending}

/-- A path goes on along the same fields. -/
theorem walk_extends (h : d.Extends d') {text : String} {names : List String}
    {chain : List FieldId} (he : e.Extends e') (hw : walk d text ending e names = .ok chain) :
    walk d' text ending e' names = .ok chain := by
  induction names generalizing e e' chain with
  | nil => exact hw
  | cons name names ih =>
    rw [walk, bind_eq_ok] at hw ⊢
    obtain ⟨f, hf, hw⟩ := hw
    refine ⟨f, orFail_eq_ok.2 (he.field? (orFail_eq_ok.1 hf)), ?_⟩
    by_cases hlast : names.isEmpty ∧ ending = .value
    · rw [if_pos hlast, guardFlaw_eq_ok] at hw ⊢
      exact hw
    · rw [if_neg hlast, bind_eq_ok] at hw ⊢
      obtain ⟨next, hnext, hw⟩ := hw
      obtain ⟨rest, hrest, hchain⟩ := bind_eq_ok.1 hw
      obtain ⟨id, hid, hentity⟩ := Option.bind_eq_some_iff.1 (orFail_eq_ok.1 hnext)
      obtain ⟨next', hnext', hR⟩ := h.entity? hentity
      refine ⟨next', ?_, bind_eq_ok.2 ⟨rest, ih hR hrest, hchain⟩⟩
      rw [orFail_eq_ok, hid, Option.bind_some, hnext']

/-- **A path that is linked is linked alike where there is more.** -/
theorem link_extends (h : d.Extends d') (he : e.Extends e') (hp : p.link d e ending = .ok p') :
    p.link d' e' ending = .ok p' := by
  obtain ⟨chain, hchain, rfl⟩ := map_eq_ok.1 hp
  refine map_eq_ok.2 ⟨chain, ?_, rfl⟩
  rw [resolve] at hchain ⊢
  by_cases hempty : p.names.isEmpty ∧ ending = .value
  · rw [if_pos hempty] at hchain
    exact absurd hchain failFlaw_ne_ok
  · rw [if_neg hempty] at hchain ⊢
    exact walk_extends h he hchain

theorem linkLocal_extends (h : d.Extends d') (he : e.Extends e') (hp : p.linkLocal d e = .ok p') :
    p.linkLocal d' e' = .ok p' := by
  rw [linkLocal] at hp ⊢
  by_cases hlocal : p.isLocal = true
  · rw [if_pos hlocal] at hp ⊢
    exact link_extends h he hp
  · rw [if_neg hlocal] at hp
    exact absurd hp failFlaw_ne_ok

/-- The chain of a linked path leads through fields of the document. -/
theorem exists_field_of_mem_chain (hd : d.Placed) (hmem : e ∈ d.entities)
    (hp : p.link d e ending = .ok p') : ∀ id ∈ p'.chain, ∃ f, d.field? id = some f := by
  obtain ⟨chain, hchain, rfl⟩ := map_eq_ok.1 hp
  obtain ⟨fs, hfs, rfl⟩ := resolve_eq_ok_iff.1 hchain
  intro id hid
  obtain ⟨f, hf, rfl⟩ := List.mem_map.1 hid
  obtain ⟨e', he', hf⟩ := hfs.mem_fields hmem f hf
  exact ⟨f, hd.field?_id he' hf⟩

end Path

theorem Document.Extends.field?_eq (h : d.Extends d') {id : FieldId}
    (hid : ∃ f, d.field? id = some f) : d'.field? id = d.field? id := by
  obtain ⟨f, hf⟩ := hid
  rw [hf, h.field? hf]

namespace Path

variable {p p' : Path} (h : d.Extends d') (hd : d.Placed) (hmem : e ∈ d.entities)

include h hd hmem

/-- The type at the end of a linked path is the same where there is more. -/
theorem terminalType?_extends {ending : Ending} (hp : p.link d e ending = .ok p') :
    p'.terminalType? d' = p'.terminalType? d := by
  have hchain := exists_field_of_mem_chain hd hmem hp
  rw [terminalType?, terminalType?]
  cases hid : p'.terminal with
  | none => rfl
  | some id =>
    rw [Option.bind_some, Option.bind_some, h.field?_eq (hchain id (List.mem_of_getLast? hid))]

theorem linkCompared_extends (he : e.Extends e') {op : Operator}
    (hp : p.linkCompared d e op = .ok p') : p.linkCompared d' e' op = .ok p' := by
  rw [linkCompared_eq_ok] at hp ⊢
  rw [terminalType?_extends h hd hmem hp.1]
  exact ⟨link_extends h he hp.1, hp.2⟩

theorem linkModified_extends (he : e.Extends e') {modifier : Modifier}
    (hp : p.linkModified d e modifier = .ok p') : p.linkModified d' e' modifier = .ok p' := by
  rw [linkModified_eq_ok] at hp ⊢
  have hlink : p.link d e .value = .ok p' := by
    have hlocal := hp.1
    rw [linkLocal] at hlocal
    split_ifs at hlocal with hname
    · exact hlocal
    · exact absurd hlocal failFlaw_ne_ok
  rw [terminalType?_extends h hd hmem hlink]
  exact ⟨linkLocal_extends h he hp.1, hp.2⟩

end Path

/-! ### Specifications -/

section

variable (h : d.Extends d') (hd : d.Placed) (hmem : e ∈ d.entities) (he : e.Extends e')

include h hd hmem

/-- Whether a linked parameter asks for a key is the same where there is more. -/
theorem Search.asksForKey_extends {p : SearchParam} {path : Path}
    (hp : p.path.linkCompared d e p.op = .ok path) :
    asksForKey d' { p with path } = asksForKey d { p with path } := by
  have hchain := Path.exists_field_of_mem_chain hd hmem (Path.linkCompared_eq_ok.1 hp).1
  unfold asksForKey
  cases hid : path.chain.head? with
  | none => rfl
  | some id =>
    rw [Option.bind_some, Option.bind_some, h.field?_eq (hchain id (List.mem_of_head? hid))]

include he

/-- **A search that is linked is linked alike where there is more**, and returns one row at most
there if it did. -/
theorem Search.link_extends {s s' : Search} (hs : s.link d e = .ok s') :
    s.link d' e' = .ok s' := by
  unfold link at hs ⊢
  simp only [bind_eq_ok, pure_eq_ok] at hs ⊢
  obtain ⟨params, hparams, orders, horders, aggregate, haggregate, distinct, hdistinct, rfl⟩ := hs
  refine ⟨params, ?_, orders, ?_, aggregate, ?_, distinct, ?_, ?_⟩
  · refine mapM_of_ok (fun p _ p' hp => ?_) hparams
    obtain ⟨path, hpath, hput⟩ := bind_eq_ok.1 hp
    exact bind_eq_ok.2 ⟨path, Path.linkCompared_extends h hd hmem he hpath, hput⟩
  · refine mapM_of_ok (fun o _ o' ho => ?_) horders
    obtain ⟨path, hpath, hput⟩ := bind_eq_ok.1 ho
    exact bind_eq_ok.2 ⟨path, Path.link_extends h he hpath, hput⟩
  · refine option_mapM_of_ok (fun a a' ha => ?_) haggregate
    obtain ⟨path, hpath, ha⟩ := bind_eq_ok.1 ha
    obtain ⟨group, hgroup, hput⟩ := bind_eq_ok.1 ha
    exact bind_eq_ok.2 ⟨path, Path.link_extends h he hpath,
      bind_eq_ok.2 ⟨group, Path.link_extends h he hgroup, hput⟩⟩
  · refine option_mapM_of_ok (fun x x' hx => ?_) hdistinct
    obtain ⟨path, hpath, hput⟩ := bind_eq_ok.1 hx
    exact bind_eq_ok.2 ⟨path, Path.link_extends h he hpath, hput⟩
  · have hany : params.any (asksForKey d') = params.any (asksForKey d) := by
      rw [Bool.eq_iff_iff, List.any_eq_true, List.any_eq_true]
      refine exists_congr fun p => and_congr_right fun hp => ?_
      obtain ⟨p₀, _, hp₀⟩ := exists_of_mem_mapM hparams hp
      obtain ⟨path, hpath, hput⟩ := bind_eq_ok.1 hp₀
      obtain rfl := pure_eq_ok.1 hput
      rw [asksForKey_extends h hd hmem hpath]
    rw [hany]

/-- **A mutation that is linked is linked alike where there is more.** -/
theorem Mutation.link_extends {m m' : Mutation} (hm : m.link d e = .ok m') :
    m.link d' e' = .ok m' := by
  unfold link at hm ⊢
  rw [guardFlaw_eq_ok] at hm ⊢
  simp only [bind_eq_ok, pure_eq_ok] at hm ⊢
  obtain ⟨hkind, modify, hmodify, constrain, hconstrain, rfl⟩ := hm
  refine ⟨hkind, modify, ?_, constrain, ?_, rfl⟩
  · refine mapM_of_ok (fun f _ f' hf => ?_) hmodify
    obtain ⟨path, hpath, hput⟩ := bind_eq_ok.1 hf
    exact bind_eq_ok.2 ⟨path, Path.linkModified_extends h hd hmem he hpath, hput⟩
  · refine mapM_of_ok (fun c _ c' hc => ?_) hconstrain
    obtain ⟨path, hpath, hput⟩ := bind_eq_ok.1 hc
    exact bind_eq_ok.2 ⟨path, Path.linkCompared_extends h hd hmem he hpath, hput⟩

omit hd hmem in
/-- **A unique constraint that is linked is linked alike where there is more.** -/
theorem Unique.link_extends {u u' : Unique} (hu : u.link d e = .ok u') :
    u.link d' e' = .ok u' := by
  obtain ⟨fields, hfields, hput⟩ := bind_eq_ok.1 hu
  exact bind_eq_ok.2 ⟨fields, mapM_of_ok (fun _ _ _ => Path.linkLocal_extends h he) hfields, hput⟩

end

end

end DataModel
