import Mathlib
import ExpressModel.Proofs.Building.Listing

/-! # The arena

Descriptors and schemas are only ever added, at the end, so their handles are issued one after
another and denote for good what they were issued for.  `ArenaExact` says this of everything that
a run issues, and that the schemas list exactly what was declared in them, every slot of their
lists occupied: no descriptor is declared twice, in two schemas or in two lists.

`arena_exact` is by induction on the run: an operation issues the next handle or none
(`perform_issued`, `perform_issuedSchema`), and whatever it issues is still denoted at the end,
since every operation extends the dictionary. -/

namespace ExpressModel

/-! ### Lists without gaps -/

theorem map_some_filterMap_id {α : Type} {l : List (Option α)} (h : ∀ x ∈ l, x.isSome) :
    (l.filterMap id).map some = l := by
  induction l with
  | nil => rfl
  | cons x l ih =>
      obtain ⟨a, rfl⟩ := Option.isSome_iff_exists.mp (h x List.mem_cons_self)
      have hrest := ih fun y hy => h y (List.mem_cons_of_mem _ hy)
      rw [List.filterMap_cons, id_eq, List.map_cons, hrest]

/-- A part of what is read off a list is read off it in the same order. -/
theorem filterMap_sublist {α β : Type} {f g : α → Option β}
    (h : ∀ a b, f a = some b → g a = some b) (l : List α) :
    (l.filterMap f).Sublist (l.filterMap g) := by
  induction l with
  | nil => exact List.Sublist.slnil
  | cons a l ih =>
      cases hf : f a with
      | none =>
          rw [List.filterMap_cons_none hf]
          refine ih.trans ?_
          rw [List.filterMap_cons]
          cases g a with
          | none => exact .refl _
          | some b => exact List.sublist_cons_self b _
      | some b =>
          rw [List.filterMap_cons_some hf, List.filterMap_cons_some (h a b hf)]
          exact ih.cons_cons b

namespace Registry

variable {α : Type}

/-- Every slot of the registry is occupied. -/
def Full (r : Registry α) : Prop :=
  ∀ slot ∈ r.toList, slot.isSome

theorem Full.toList_eq {r : Registry α} (h : r.Full) : r.toList = r.live.map some := by
  rw [live_eq, map_some_filterMap_id h]

theorem full_ofOptions (options : RegistryOptions) : (ofOptions options : Registry α).Full := by
  intro slot hslot
  cases hslot

theorem Full.append {r : Registry α} (h : r.Full) (a : α) : (r.append a).Full := by
  intro slot hslot
  rw [toList_append, List.mem_append, List.mem_singleton] at hslot
  rcases hslot with hslot | rfl
  · exact h slot hslot
  · rfl

end Registry

namespace Dictionary

variable {d : Dictionary} {l l' : Listing} {schema schema' : SchemaId} {id : TypeId}

/-! ### What is issued -/

/-- The handle that an operation has issued, by its answer, with the descriptor it was issued
for. -/
def issued? : Operation × Except Error Reply → Option (TypeId × Descriptor)
  | (.addUnnamed origin? t, .ok (.type id)) => some (id, { t with origin? })
  | (.insertType schema t, .ok (.type id)) => some (id, { t with origin? := some schema })
  | (.insertEntity schema t, .ok (.entity e)) => some (e.toType, { t with origin? := some schema })
  | _ => none

/-- The schema handle that an operation has issued, with the name of the schema. -/
def issuedSchema? : Operation × Except Error Reply → Option (SchemaId × String)
  | (.addSchema name, .ok (.schema id)) => some (id, name)
  | _ => none

/-- The handles that a run issues, in order, with what they are issued for. -/
def issued (ops : List Operation) (d : Dictionary) : List (TypeId × Descriptor) :=
  events perform issued? ops d

/-- The schema handles that a run issues, in order, with the names of the schemas. -/
def issuedSchemas (ops : List Operation) (d : Dictionary) : List (SchemaId × String) :=
  events perform issuedSchema? ops d

/-! ### One operation -/

theorem typeCount_recordRenames (schema : String) (renames : List (TypeId × String))
    (d : Dictionary) : (recordRenames schema renames d).typeCount = d.typeCount :=
  recordRenames_frame typeCount typeCount_modifyType schema renames d

theorem schemaCount_recordRenames (schema : String) (renames : List (TypeId × String))
    (d : Dictionary) : (recordRenames schema renames d).schemaCount = d.schemaCount :=
  recordRenames_frame schemaCount (fun _ _ _ => rfl) schema renames d

theorem schemaCount_modifySchema (schema : SchemaId) (f : Schema → Schema) (d : Dictionary) :
    (d.modifySchema schema f).schemaCount = d.schemaCount := by
  simp [modifySchema, schemaCount]

theorem typeCount_addUnnamed (origin? : Option SchemaId) (t : Descriptor) (d : Dictionary) :
    (addUnnamed origin? t d).2.typeCount = d.typeCount + 1 := by
  simp [addUnnamed, typeCount]

/-- A new descriptor is what it was inserted as, up to its registry options. -/
theorem exists_find?_addUnnamed (origin? : Option SchemaId) (t : Descriptor) (d : Dictionary) :
    ∃ u, (addUnnamed origin? t d).2.find? ⟨d.typeCount⟩ = some u ∧
      Descriptor.Keeps { t with origin? } u := by
  refine ⟨_, ?_, Descriptor.keeps_applyOptions d.config.registry { t with origin? }⟩
  rw [find?_addUnnamed, if_pos rfl]

/-- The operation issues no descriptor handle. -/
structure IssuesNone (op : Operation) (d : Dictionary) : Prop where
  issued : issued? (op, (perform op d).1) = none
  typeCount : (perform op d).2.typeCount = d.typeCount

/-- The operation issues the next descriptor handle, which denotes what it is issued for. -/
structure IssuesNext (op : Operation) (d : Dictionary) (t : Descriptor) : Prop where
  issued : issued? (op, (perform op d).1) = some (⟨d.typeCount⟩, t)
  typeCount : (perform op d).2.typeCount = d.typeCount + 1
  denotes : ∃ u, (perform op d).2.find? ⟨d.typeCount⟩ = some u ∧ t.Keeps u

theorem issuesNone_of_refused {op : Operation} {err : Error}
    (h : perform op d = (.error err, d)) : IssuesNone op d := by
  refine ⟨?_, ?_⟩
  · rw [h]
    cases op <;> rfl
  · rw [h]

theorem issuesNext_of_declare {op : Operation} {reply : Reply} {t : Descriptor}
    (h : perform op d = (.ok reply, declare l schema t d))
    (hissued : issued? (op, .ok reply) =
      some (⟨d.typeCount⟩, { t with origin? := some schema })) :
    IssuesNext op d { t with origin? := some schema } := by
  refine ⟨?_, ?_, ?_⟩
  · rw [h]
    exact hissued
  · rw [h]
    exact typeCount_addUnnamed (some schema) t d
  · rw [h]
    exact exists_find?_addUnnamed (some schema) t d

theorem perform_issued (op : Operation) (d : Dictionary) :
    IssuesNone op d ∨ ∃ t, IssuesNext op d t := by
  cases op with
  | addSchema name => exact .inl ⟨rfl, rfl⟩
  | addUnnamed origin? t =>
      exact .inr ⟨_, rfl, typeCount_addUnnamed origin? t d, exists_find?_addUnnamed origin? t d⟩
  | insertType schema t =>
      rcases perform_insertType schema t d with ⟨err, h⟩ | ⟨s, -, -, h⟩
      · exact .inl (issuesNone_of_refused h)
      · exact .inr ⟨_, issuesNext_of_declare h rfl⟩
  | insertEntity schema t =>
      rcases perform_insertEntity schema t d with ⟨err, h⟩ | ⟨s, -, -, h⟩
      · exact .inl (issuesNone_of_refused h)
      · exact .inr ⟨_, issuesNext_of_declare h rfl⟩
  | onType id e =>
      refine .inl ⟨rfl, ?_⟩
      rw [perform_onType, typeCount_modifyType]
  | onSchema schema e =>
      refine .inl ⟨rfl, ?_⟩
      obtain ⟨f, -, h⟩ := perform_onSchema schema e d
      rw [h]
      rfl
  | registerRenames schema =>
      refine .inl ⟨rfl, ?_⟩
      rcases perform_registerRenames schema d with ⟨-, h⟩ | ⟨s, -, h⟩
      · rw [h]
      · rw [h, typeCount_recordRenames]

/-- An operation issues the next schema handle, or none. -/
theorem perform_issuedSchema (op : Operation) (d : Dictionary) :
    (issuedSchema? (op, (perform op d).1) = none ∧
      (perform op d).2.schemaCount = d.schemaCount) ∨
    ∃ name, issuedSchema? (op, (perform op d).1) = some (⟨d.schemaCount⟩, name) ∧
      (perform op d).2.schemaCount = d.schemaCount + 1 ∧
      ∃ s, (perform op d).2.schema? ⟨d.schemaCount⟩ = some s ∧ s.name = name := by
  cases op with
  | addSchema name =>
      refine .inr ⟨name, rfl, ?_, Schema.new name d.config.registry, ?_, rfl⟩
      · rw [perform_addSchema]
        simp [addSchema, schemaCount]
      · rw [perform_addSchema, schema?_addSchema, if_pos rfl]
  | addUnnamed origin? t => exact .inl ⟨rfl, rfl⟩
  | insertType schema t =>
      refine .inl ⟨rfl, ?_⟩
      rcases perform_insertType schema t d with ⟨err, h⟩ | ⟨s, -, -, h⟩
      · rw [h]
      · rw [h]
        exact schemaCount_modifySchema schema _ _
  | insertEntity schema t =>
      refine .inl ⟨rfl, ?_⟩
      rcases perform_insertEntity schema t d with ⟨err, h⟩ | ⟨s, -, -, h⟩
      · rw [h]
      · rw [h]
        exact schemaCount_modifySchema schema _ _
  | onType id e =>
      refine .inl ⟨rfl, ?_⟩
      rw [perform_onType]
      rfl
  | onSchema schema e =>
      refine .inl ⟨rfl, ?_⟩
      obtain ⟨f, -, h⟩ := perform_onSchema schema e d
      rw [h, schemaCount_modifySchema]
  | registerRenames schema =>
      refine .inl ⟨rfl, ?_⟩
      rcases perform_registerRenames schema d with ⟨-, h⟩ | ⟨s, -, h⟩
      · rw [h]
      · rw [h, schemaCount_recordRenames]

/-! ### Runs -/

/-- What is read off the events of a run is read off its steps. -/
theorem map_events {β γ : Type} (event? : Operation × Except Error Reply → Option β)
    (read : β → γ) (ops : List Operation) (d : Dictionary) :
    (events perform event? ops d).map read =
      events perform (fun x => (event? x).map read) ops d :=
  List.map_filterMap ..

/-- The handles are issued one after another, from the number of descriptors at the start. -/
theorem issued_eq_range' (ops : List Operation) (d : Dictionary) :
    (issued ops d).map (·.1.index) = List.range' d.typeCount (issued ops d).length ∧
      (run perform ops d).2.typeCount = d.typeCount + (issued ops d).length := by
  refine map_events_eq_range' ?_ ops d
  intro op d
  rcases perform_issued op d with h | ⟨t, h⟩
  · exact .inl ⟨h.issued, h.typeCount⟩
  · exact .inr ⟨_, h.issued, rfl, h.typeCount⟩

theorem issuedSchemas_eq_range' (ops : List Operation) (d : Dictionary) :
    (issuedSchemas ops d).map (·.1.index) =
        List.range' d.schemaCount (issuedSchemas ops d).length ∧
      (run perform ops d).2.schemaCount = d.schemaCount + (issuedSchemas ops d).length := by
  refine map_events_eq_range' ?_ ops d
  intro op d
  rcases perform_issuedSchema op d with h | ⟨name, hissued, hcount, -⟩
  · exact .inl h
  · exact .inr ⟨_, hissued, rfl, hcount⟩

/-- What a run has issued a handle for is what the handle denotes in the end. -/
theorem exists_find?_of_mem_issued {t : Descriptor} {ops : List Operation}
    (h : (id, t) ∈ issued ops d) :
    ∃ u, (run perform ops d).2.find? id = some u ∧ t.Keeps u := by
  induction ops generalizing d with
  | nil => cases h
  | cons op ops ih =>
      unfold issued at h
      rw [events_cons, List.mem_append, Option.mem_toList] at h
      rcases h with h | h
      · rcases perform_issued op d with hnone | ⟨t', hnext⟩
        · rw [hnone.issued] at h
          cases h
        · rw [hnext.issued] at h
          cases h
          obtain ⟨u, hu, hkeeps⟩ := hnext.denotes
          obtain ⟨v, hv, hkeeps'⟩ := (run_extends ops _).types hu
          exact ⟨v, hv, hkeeps.trans hkeeps'⟩
      · exact ih h

theorem exists_schema?_of_mem_issuedSchemas {name : String} {ops : List Operation}
    (h : (schema, name) ∈ issuedSchemas ops d) :
    ∃ s, (run perform ops d).2.schema? schema = some s ∧ s.name = name := by
  induction ops generalizing d with
  | nil => cases h
  | cons op ops ih =>
      unfold issuedSchemas at h
      rw [events_cons, List.mem_append, Option.mem_toList] at h
      rcases h with h | h
      · rcases perform_issuedSchema op d with ⟨hnone, -⟩ | ⟨name', hnext, -, s, hs, hname⟩
        · rw [hnone] at h
          cases h
        · rw [hnext] at h
          cases h
          obtain ⟨u, hu, hname'⟩ := (run_extends ops _).schemas hs
          exact ⟨u, hu, hname'.trans hname⟩
      · exact ih h

/-! ### Lists of declarations -/

/-- Every slot of every list of declarations is occupied. -/
def ListsFull (d : Dictionary) : Prop :=
  ∀ schema s, d.schema? schema = some s → s.types.Full ∧ s.entities.Full

theorem listsFull_modifySchema (other : SchemaId) {f : Schema → Schema}
    (hf : ∀ s : Schema, s.types.Full ∧ s.entities.Full → (f s).types.Full ∧ (f s).entities.Full)
    (h : d.ListsFull) : (d.modifySchema other f).ListsFull := by
  intro schema s hs
  rw [schema?_modifySchema] at hs
  split at hs
  · obtain ⟨u, hu, rfl⟩ := Option.map_eq_some_iff.mp hs
    exact hf u (h schema u hu)
  · exact h schema s hs

theorem listsFull_declare (l : Listing) (schema : SchemaId) (t : Descriptor) (h : d.ListsFull) :
    (declare l schema t d).ListsFull := by
  have hadd : (addUnnamed (some schema) t d).2.ListsFull := h
  refine listsFull_modifySchema schema ?_ hadd
  rintro s ⟨htypes, hentities⟩
  cases l with
  | types => exact ⟨htypes.append _, hentities⟩
  | entities => exact ⟨htypes, hentities.append _⟩

theorem listsFull_perform (op : Operation) (h : d.ListsFull) : (perform op d).2.ListsFull := by
  cases op with
  | addSchema name =>
      intro schema s hs
      rw [perform_addSchema, schema?_addSchema] at hs
      split at hs
      · cases hs
        exact ⟨Registry.full_ofOptions _, Registry.full_ofOptions _⟩
      · exact h schema s hs
  | addUnnamed origin? t => exact h
  | insertType other t =>
      rcases perform_insertType other t d with ⟨err, hop⟩ | ⟨s, -, -, hop⟩
      · rw [hop]
        exact h
      · rw [hop]
        exact listsFull_declare .types other t h
  | insertEntity other t =>
      rcases perform_insertEntity other t d with ⟨err, hop⟩ | ⟨s, -, -, hop⟩
      · rw [hop]
        exact h
      · rw [hop]
        exact listsFull_declare .entities other t h
  | onType id e =>
      rw [perform_onType]
      exact h
  | onSchema other e =>
      obtain ⟨f, hf, hop⟩ := perform_onSchema_sameLists other e d
      rw [hop]
      refine listsFull_modifySchema other ?_ h
      intro s hs
      rw [(hf s).types, (hf s).entities]
      exact hs
  | registerRenames other =>
      rcases perform_registerRenames other d with ⟨-, hop⟩ | ⟨u, -, hop⟩
      · rw [hop]
        exact h
      · rw [hop]
        intro schema s hs
        rw [schema?_recordRenames] at hs
        exact h schema s hs

theorem listsFull_built (config : Config) (ops : List Operation) :
    (built config ops).ListsFull := by
  have hnew : (new config).ListsFull := by
    intro schema s hs
    cases hs
  exact run_preserves (fun op _ => listsFull_perform op) ops hnew

theorem listed_built (l : Listing) (schema : SchemaId) (config : Config) (ops : List Operation) :
    (built config ops).listed l schema = declared l schema ops (new config) := by
  have hnone : (new config).schema? schema = none := rfl
  unfold built
  rw [listed_run, listed_of_none hnone, List.nil_append]

theorem declared_sublist_issued (l : Listing) (schema : SchemaId) (ops : List Operation)
    (d : Dictionary) : (declared l schema ops d).Sublist ((issued ops d).map Prod.fst) := by
  unfold issued
  rw [map_events]
  refine filterMap_sublist ?_ _
  rintro ⟨op, reply⟩ id h
  unfold declared? at h
  split at h
  · next heq =>
    cases heq
    split at h
    · exact h
    · cases h
  · next heq =>
    cases heq
    split at h
    · exact h
    · cases h
  · cases h

theorem declaredIn_of_mem_declared {config : Config} {ops : List Operation}
    (h : id ∈ declared l schema ops (new config)) : (built config ops).DeclaredIn l schema id := by
  rw [← listed_built] at h
  exact wellListed_built config ops l schema id h

/-- A descriptor is declared in one schema and in one list. -/
theorem DeclaredIn.unique (h : d.DeclaredIn l schema id) (h' : d.DeclaredIn l' schema' id) :
    l = l' ∧ schema = schema' := by
  obtain ⟨t, ht, hentity, horigin⟩ := h
  obtain ⟨u, hu, hentity', horigin'⟩ := h'
  rw [ht] at hu
  cases hu
  rw [horigin] at horigin'
  refine ⟨?_, Option.some.inj horigin'⟩
  rw [hentity] at hentity'
  cases l <;> cases l' <;> first | rfl | cases hentity'

/-! ### Exactness -/

/-- What a run issues and declares is what the dictionary it builds holds and lists. -/
structure ArenaExact (config : Config) (ops : List Operation) : Prop where
  /-- The handles follow those of the built-in types without a gap. -/
  dense : (issued ops (new config)).map (·.1.index) =
    List.range' 8 (issued ops (new config)).length
  fresh : ((issued ops (new config)).map Prod.fst).Nodup
  /-- There are no descriptors besides. -/
  count : (built config ops).typeCount = 8 + (issued ops (new config)).length
  /-- Handles fit in words of 32 bits as long as no more are issued than there is room for next to
  those of the built-in types. -/
  word : (issued ops (new config)).length ≤ 2 ^ 32 - 8 → ∀ i ∈ issued ops (new config),
    i.1.index < 2 ^ 32
  /-- A handle denotes what it was issued for: the name, the description, the origin and the kind
  are the same. -/
  denotes : ∀ id t, (id, t) ∈ issued ops (new config) →
    ∃ u, (built config ops).find? id = some u ∧ t.Keeps u
  /-- Schema handles start at zero. -/
  denseSchemas : (issuedSchemas ops (new config)).map (·.1.index) =
    List.range' 0 (issuedSchemas ops (new config)).length
  freshSchemas : ((issuedSchemas ops (new config)).map Prod.fst).Nodup
  countSchemas : (built config ops).schemaCount = (issuedSchemas ops (new config)).length
  denotesSchemas : ∀ schema name, (schema, name) ∈ issuedSchemas ops (new config) →
    ∃ s, (built config ops).schema? schema = some s ∧ s.name = name
  /-- The types of a schema are those declared in it, in order, with no vacant slot. -/
  types : ∀ schema s, (built config ops).schema? schema = some s →
    s.types.toList = (declared .types schema ops (new config)).map some
  /-- So are its entities. -/
  entities : ∀ schema s, (built config ops).schema? schema = some s →
    s.entities.toList = (declared .entities schema ops (new config)).map fun id => some ⟨id⟩
  declaredOnce : ∀ l schema, (declared l schema ops (new config)).Nodup
  /-- What is declared is an entity or none, as its list says, and comes from the schema. -/
  declaredIn : ∀ l schema id, id ∈ declared l schema ops (new config) →
    (built config ops).DeclaredIn l schema id
  declaredApart : ∀ l l' schema schema' id, id ∈ declared l schema ops (new config) →
    id ∈ declared l' schema' ops (new config) → l = l' ∧ schema = schema'

theorem typeCount_new (config : Config) : (new config).typeCount = 8 := by
  simp [new, typeCount, PrimitiveKind.builtins]

theorem nodup_of_map_eq_range' {η β : Type} (index : η → Nat) {l : List (η × β)} {start n : Nat}
    (h : l.map (fun i => index i.1) = List.range' start n) : (l.map Prod.fst).Nodup := by
  refine List.Nodup.of_map index ?_
  rw [List.map_map]
  show (l.map fun i => index i.1).Nodup
  rw [h]
  exact List.nodup_range'

theorem types_built {config : Config} {ops : List Operation} {s : Schema}
    (hs : (built config ops).schema? schema = some s) :
    s.types.toList = (declared .types schema ops (new config)).map some := by
  rw [(listsFull_built config ops schema s hs).1.toList_eq, ← listed_built, listed_of_some hs]
  rfl

theorem entities_built {config : Config} {ops : List Operation} {s : Schema}
    (hs : (built config ops).schema? schema = some s) :
    s.entities.toList =
      (declared .entities schema ops (new config)).map fun id => some ⟨id⟩ := by
  rw [(listsFull_built config ops schema s hs).2.toList_eq, ← listed_built, listed_of_some hs]
  show s.entities.live.map some = (s.entities.live.map EntityId.toType).map fun id => some ⟨id⟩
  rw [List.map_map]
  rfl

/-- Whatever operations build a dictionary, its handles and lists are exact. -/
theorem arena_exact (config : Config) (ops : List Operation) : ArenaExact config ops := by
  obtain ⟨hdense, hcount⟩ := issued_eq_range' ops (new config)
  rw [typeCount_new] at hdense hcount
  obtain ⟨hschemas, hschemaCount⟩ := issuedSchemas_eq_range' ops (new config)
  have hnone : (new config).schemaCount = 0 := rfl
  rw [hnone] at hschemas hschemaCount
  rw [Nat.zero_add] at hschemaCount
  have hfresh := nodup_of_map_eq_range' TypeId.index hdense
  have hword : (issued ops (new config)).length ≤ 2 ^ 32 - 8 → ∀ i ∈ issued ops (new config),
      i.1.index < 2 ^ 32 := by
    intro hle i hi
    have hmem : i.1.index ∈ List.range' 8 (issued ops (new config)).length := by
      rw [← hdense]
      exact List.mem_map_of_mem hi
    have hlt := (List.mem_range'_1.mp hmem).2
    omega
  exact {
    dense := hdense
    fresh := hfresh
    count := hcount
    word := hword
    denotes := fun _ _ => exists_find?_of_mem_issued
    denseSchemas := hschemas
    freshSchemas := nodup_of_map_eq_range' SchemaId.index hschemas
    countSchemas := hschemaCount
    denotesSchemas := fun _ _ => exists_schema?_of_mem_issuedSchemas
    types := fun _ _ => types_built
    entities := fun _ _ => entities_built
    declaredOnce := fun l schema => (declared_sublist_issued l schema ops _).nodup hfresh
    declaredIn := fun _ _ _ => declaredIn_of_mem_declared
    declaredApart := fun _ _ _ _ _ h h' =>
      (declaredIn_of_mem_declared h).unique (declaredIn_of_mem_declared h') }

end Dictionary

end ExpressModel
