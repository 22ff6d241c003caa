import ExpressModel.Proofs.Building.Operation

/-! # Listings

What the schemas of a dictionary list is what has been declared in them: `listed_run` reads the
lists off the operations of a run and their answers.  What a schema lists among its types is a
type that was declared in it, and what it lists among its entities an entity (`WellListed`); this
holds of every dictionary that operations build (`wellListed_built`). -/

namespace ExpressModel.Dictionary

variable {d d' : Dictionary} {l : Listing} {schema : SchemaId} {id : TypeId}

/-- What a schema declares; nothing when there is no such schema. -/
def listed (l : Listing) (schema : SchemaId) (d : Dictionary) : List TypeId :=
  (d.schema? schema).elim [] (Schema.listed l)

theorem listed_of_some {s : Schema} (h : d.schema? schema = some s) :
    d.listed l schema = s.listed l := by
  unfold listed
  rw [h]
  rfl

theorem listed_of_none (h : d.schema? schema = none) : d.listed l schema = [] := by
  unfold listed
  rw [h]
  rfl

/-- What an operation has declared, by its answer. -/
def declared? (l : Listing) (schema : SchemaId) : Operation × Except Error Reply → Option TypeId
  | (.insertType s _, .ok (.type id)) => if l = .types ∧ s = schema then some id else none
  | (.insertEntity s _, .ok (.entity e)) =>
    if l = .entities ∧ s = schema then some e.toType else none
  | _ => none

def declared (l : Listing) (schema : SchemaId) (ops : List Operation) (d : Dictionary) :
    List TypeId :=
  (ops.zip (run perform ops d).1).filterMap (declared? l schema)

/-! ### Lists -/

theorem listed_addSchema (name : String) (l : Listing) (schema : SchemaId) (d : Dictionary) :
    (addSchema name d).2.listed l schema = d.listed l schema := by
  unfold listed
  rw [schema?_addSchema]
  split
  · next h =>
    subst h
    have hnone : d.schema? ⟨d.schemaCount⟩ = none := by
      cases hs : d.schema? ⟨d.schemaCount⟩ with
      | none => rfl
      | some s => exact absurd (index_lt_schemaCount hs) (Nat.lt_irrefl _)
    rw [hnone]
    cases l <;> simp [Schema.listed, Schema.new, Registry.live_eq, Registry.toList,
      Registry.ofOptions, Registry.new]
  · rfl

theorem listed_modifySchema (other : SchemaId) {f : Schema → Schema}
    (hf : ∀ s : Schema, s.Keeps (f s)) (l : Listing) (schema : SchemaId) (d : Dictionary) :
    (d.modifySchema other f).listed l schema = d.listed l schema := by
  unfold listed
  rw [schema?_modifySchema]
  cases d.schema? schema with
  | none => exact congrArg (fun s? => Option.elim s? [] (Schema.listed l)) (ite_self none)
  | some s =>
      split
      · exact (hf s).listed l
      · rfl

/-- What no change of a descriptor reaches, renames do not reach. -/
theorem recordRenames_frame {γ : Type} (read : Dictionary → γ)
    (hread : ∀ id f (d : Dictionary), read (d.modifyType id f) = read d) (schema : String)
    (renames : List (TypeId × String)) (d : Dictionary) :
    read (recordRenames schema renames d) = read d := by
  unfold recordRenames
  induction renames generalizing d with
  | nil => rfl
  | cons rename renames ih => rw [List.foldl_cons, ih, hread]

theorem schema?_recordRenames (schema : String) (renames : List (TypeId × String))
    (d : Dictionary) (id : SchemaId) :
    (recordRenames schema renames d).schema? id = d.schema? id :=
  recordRenames_frame (·.schema? id) (fun _ _ _ => rfl) schema renames d

/-- A declaration goes to the end of its list, and to no other. -/
theorem listed_declare {s : Schema} {other : SchemaId} (hs : d.schema? other = some s)
    (kind : Listing) (t : Descriptor) (l : Listing) (schema : SchemaId) :
    (declare kind other t d).listed l schema =
      d.listed l schema ++ if l = kind ∧ other = schema then [⟨d.typeCount⟩] else [] := by
  have hadd : (addUnnamed (some other) t d).2.schema? schema = d.schema? schema := rfl
  unfold listed declare
  rw [schema?_modifySchema, hadd]
  by_cases hother : other = schema
  · subst hother
    rw [if_pos rfl, hs]
    show (s.enlist _ kind).listed l = s.listed l ++ _
    rw [Schema.listed_enlist]
    by_cases hl : kind = l
    · rw [if_pos hl, if_pos ⟨hl.symm, rfl⟩]
    · rw [if_neg hl, if_neg (fun h => hl h.1.symm)]
  · rw [if_neg hother, if_neg (fun h => hother h.2), List.append_nil]

theorem listed_perform (l : Listing) (schema : SchemaId) (op : Operation) (d : Dictionary) :
    (perform op d).2.listed l schema =
      d.listed l schema ++ (declared? l schema (op, (perform op d).1)).toList := by
  cases op with
  | addSchema name =>
      rw [perform_addSchema, listed_addSchema]
      exact (List.append_nil _).symm
  | addUnnamed origin? t =>
      rw [perform_addUnnamed]
      exact (List.append_nil _).symm
  | insertType other t =>
      rcases perform_insertType other t d with ⟨err, h⟩ | ⟨s, hs, -, h⟩
      · rw [h]
        exact (List.append_nil _).symm
      · rw [h, listed_declare hs]
        unfold declared?
        dsimp only
        split <;> rfl
  | insertEntity other t =>
      rcases perform_insertEntity other t d with ⟨err, h⟩ | ⟨s, hs, -, h⟩
      · rw [h]
        exact (List.append_nil _).symm
      · rw [h, listed_declare hs]
        unfold declared?
        dsimp only
        split <;> rfl
  | onType id e =>
      rw [perform_onType]
      exact (List.append_nil _).symm
  | onSchema other e =>
      obtain ⟨f, hf, h⟩ := perform_onSchema other e d
      rw [h, listed_modifySchema other hf]
      exact (List.append_nil _).symm
  | registerRenames other =>
      have hnone : ∀ reply, (declared? l schema (.registerRenames other, reply)).toList = [] :=
        fun _ => rfl
      rw [hnone, List.append_nil]
      rcases perform_registerRenames other d with ⟨-, h⟩ | ⟨s, -, h⟩
      · rw [h]
      · rw [h]
        unfold listed
        rw [schema?_recordRenames]

theorem listed_run (l : Listing) (schema : SchemaId) (ops : List Operation) (d : Dictionary) :
    (run perform ops d).2.listed l schema = d.listed l schema ++ declared l schema ops d := by
  unfold declared
  induction ops generalizing d with
  | nil => exact (List.append_nil _).symm
  | cons op ops ih =>
      rw [run_cons_state, ih, listed_perform, run_cons_replies, List.zip_cons_cons,
        List.filterMap_cons, List.append_assoc]
      cases declared? l schema (op, (perform op d).1) <;> rfl

/-! ### What is listed -/

/-- A descriptor was declared in a schema, and belongs to the list. -/
def DeclaredIn (l : Listing) (schema : SchemaId) (id : TypeId) (d : Dictionary) : Prop :=
  ∃ t, d.find? id = some t ∧ t.isEntity = l.ofEntities ∧ t.origin? = some schema

theorem DeclaredIn.extends (h : d.DeclaredIn l schema id) (hext : d.Extends d') :
    d'.DeclaredIn l schema id := by
  obtain ⟨t, ht, hentity, horigin⟩ := h
  obtain ⟨u, hu, hkeeps⟩ := hext.types ht
  exact ⟨u, hu, hkeeps.isEntity.trans hentity, hkeeps.origin?.trans horigin⟩

theorem declaredIn_declare (l : Listing) (schema : SchemaId) {t : Descriptor}
    (ht : t.isEntity = l.ofEntities) (d : Dictionary) :
    (declare l schema t d).DeclaredIn l schema ⟨d.typeCount⟩ := by
  have hkeeps := Descriptor.keeps_applyOptions d.config.registry { t with origin? := some schema }
  refine ⟨_, ?_, hkeeps.isEntity.trans ht, hkeeps.origin?⟩
  unfold declare
  rw [find?_modifySchema, find?_addUnnamed, if_pos rfl]

theorem declaredIn_of_declared? {op : Operation}
    (h : declared? l schema (op, (perform op d).1) = some id) :
    (perform op d).2.DeclaredIn l schema id := by
  cases op with
  | insertType other t =>
      rcases perform_insertType other t d with ⟨err, hop⟩ | ⟨s, -, ht, hop⟩
      · rw [hop] at h
        cases h
      · rw [hop] at h ⊢
        unfold declared? at h
        dsimp only at h
        split at h
        · next hl =>
          obtain ⟨rfl, rfl⟩ := hl
          cases h
          exact declaredIn_declare .types other ht d
        · cases h
  | insertEntity other t =>
      rcases perform_insertEntity other t d with ⟨err, hop⟩ | ⟨s, -, ht, hop⟩
      · rw [hop] at h
        cases h
      · rw [hop] at h ⊢
        unfold declared? at h
        dsimp only at h
        split at h
        · next hl =>
          obtain ⟨rfl, rfl⟩ := hl
          cases h
          exact declaredIn_declare .entities other ht d
        · cases h
  | addSchema name => cases h
  | addUnnamed origin? t => cases h
  | onType id e => cases h
  | onSchema schema e => cases h
  | registerRenames schema => cases h

/-- What the schemas list was declared in them, in the list that it belongs to. -/
def WellListed (d : Dictionary) : Prop :=
  ∀ l schema id, id ∈ d.listed l schema → d.DeclaredIn l schema id

theorem wellListed_new (config : Config) : (new config).WellListed := by
  intro l schema id hid
  have hnone : (new config).schema? schema = none := rfl
  rw [listed_of_none hnone] at hid
  cases hid

theorem wellListed_perform (op : Operation) (h : d.WellListed) :
    (perform op d).2.WellListed := by
  intro l schema id hid
  rw [listed_perform, List.mem_append, Option.mem_toList] at hid
  rcases hid with hid | hid
  · exact (h l schema id hid).extends (perform_extends op d)
  · exact declaredIn_of_declared? hid

theorem wellListed_built (config : Config) (ops : List Operation) :
    (built config ops).WellListed :=
  run_preserves (fun op _ => wellListed_perform op) ops (wellListed_new config)

end ExpressModel.Dictionary
