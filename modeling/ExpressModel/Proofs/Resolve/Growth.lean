import Mathlib
import ExpressModel.Proofs.Building.Operation
import ExpressModel.Proofs.Resolve.Mirror

/-! # Questions to a growing dictionary

Insertions add schemas and descriptors and rewire none.  A question about descriptors that were
there before is answered as before, and one that was refused is refused for the same kind of cause
(`ask_run`), although every walk now has more steps to go: a chain that ends has ended within the
steps it had, and one that does not end is no shorter for more descriptors elsewhere.  A link that
denotes nothing would be another matter, as it may come to denote what is inserted; so there must
be none.

Only the name in a refusal because of a cycle may be another one, since it says where the steps
were used up. -/

namespace ExpressModel

/-- The kind of cause that an error reports. -/
inductive ErrorKind where
  | indexOutOfRange
  | cyclicTypeGraph
  | unknownType
  | unknownSchema
  | kindMismatch
  | config
  deriving DecidableEq

def Error.kind : Error → ErrorKind
  | .indexOutOfRange _ _ => .indexOutOfRange
  | .cyclicTypeGraph _ => .cyclicTypeGraph
  | .unknownType _ => .unknownType
  | .unknownSchema _ => .unknownSchema
  | .kindMismatch _ _ => .kindMismatch
  | .config _ => .config

namespace Dictionary

variable {d d' d'' : Dictionary}

/-! ### Insertions -/

/-- Every referent, supertype and choice denotes a descriptor. -/
def NoneDangling (d : Dictionary) : Prop :=
  ∀ t ∈ d.descriptors, ∀ link ∈ t.targets, (d.find? link.1).isSome

instance : Decidable d.NoneDangling :=
  inferInstanceAs (Decidable (∀ t ∈ d.descriptors, ∀ link ∈ t.targets, (d.find? link.1).isSome))

/-- Is it an operation that adds a schema or a descriptor? -/
def Operation.inserts : Operation → Bool
  | .addSchema _ | .addUnnamed _ _ | .insertType _ _ | .insertEntity _ _ => true
  | .onType _ _ | .onSchema _ _ | .registerRenames _ => false

/-- Every descriptor of the one dictionary is the same in the other. -/
structure Grows (d d' : Dictionary) : Prop where
  typeCount : d.typeCount ≤ d'.typeCount
  find? : ∀ {id t}, d.find? id = some t → d'.find? id = some t

theorem Grows.refl (d : Dictionary) : d.Grows d :=
  ⟨Nat.le_refl _, id⟩

theorem Grows.trans (h : d.Grows d') (h' : d'.Grows d'') : d.Grows d'' :=
  ⟨Nat.le_trans h.typeCount h'.typeCount, fun ht => h'.find? (h.find? ht)⟩

theorem grows_addUnnamed (origin? : Option SchemaId) (t : Descriptor) (d : Dictionary) :
    d.Grows (addUnnamed origin? t d).2 := by
  refine ⟨?_, fun hu => find?_addUnnamed_of_some hu origin? t⟩
  have hsize : (addUnnamed origin? t d).2.typeCount = d.typeCount + 1 := Array.size_push ..
  omega

theorem grows_declare (l : Listing) (schema : SchemaId) (t : Descriptor) (d : Dictionary) :
    d.Grows (declare l schema t d) := by
  have h := grows_addUnnamed (some schema) t d
  exact ⟨h.typeCount, h.find?⟩

theorem grows_perform {op : Operation} (h : op.inserts = true) (d : Dictionary) :
    d.Grows (perform op d).2 := by
  cases op with
  | addSchema name => exact ⟨Nat.le_refl _, id⟩
  | addUnnamed origin? t => exact grows_addUnnamed origin? t d
  | insertType schema t =>
      rcases perform_insertType schema t d with ⟨err, hop⟩ | ⟨s, -, -, hop⟩
      · rw [hop]
        exact .refl d
      · rw [hop]
        exact grows_declare .types schema t d
  | insertEntity schema t =>
      rcases perform_insertEntity schema t d with ⟨err, hop⟩ | ⟨s, -, -, hop⟩
      · rw [hop]
        exact .refl d
      · rw [hop]
        exact grows_declare .entities schema t d
  | onType id e => cases h
  | onSchema schema e => cases h
  | registerRenames schema => cases h

theorem grows_run {ops : List Operation} (h : ∀ op ∈ ops, op.inserts = true) (d : Dictionary) :
    d.Grows (run perform ops d).2 := by
  induction ops generalizing d with
  | nil => exact .refl d
  | cons op ops ih =>
      have hfirst := grows_perform (h op List.mem_cons_self) d
      exact hfirst.trans (ih (fun op hop => h op (List.mem_cons_of_mem _ hop)) _)

/-! ### Answers that stay -/

theorem NoneDangling.isSome (h : d.NoneDangling) {id : TypeId} {t : Descriptor}
    (ht : d.find? id = some t) {link : TypeId × LinkKind} (hlink : link ∈ t.targets) :
    (d.find? link.1).isSome :=
  h t (Array.mem_of_getElem? ht) link hlink

theorem Grows.follow? (h : d.Grows d') (hlinks : d.NoneDangling) {id : TypeId} {t : Descriptor}
    (ht : d.find? id = some t) : d'.follow? t = d.follow? t := by
  unfold Dictionary.follow?
  cases hr : t.referent? with
  | none => rfl
  | some next =>
      have hmem : (next, LinkKind.referent) ∈ t.targets := by
        unfold Descriptor.targets
        rw [hr]
        exact List.mem_cons_self
      obtain ⟨u, hu⟩ := Option.isSome_iff_exists.mp (hlinks.isSome ht hmem)
      have hu : d.find? next = some u := hu
      rw [Option.bind_some, Option.bind_some, hu, h.find? hu]

/-- A dictionary that has grown mirrors the one before, cycles being told apart by no name. -/
theorem Grows.mirrors (h : d.Grows d') (hlinks : d.NoneDangling) : Mirrors Error.kind d d' := by
  refine ⟨fun ht => ⟨_, h.find? ht, .refl _⟩, ?_, ?_, ?_⟩
  · intro id t u ht hu
    rw [h.find? ht] at hu
    cases hu
    rw [h.follow? hlinks ht]
  · intro id t ht link hlink
    obtain ⟨u, hu⟩ := Option.isSome_iff_exists.mp (hlinks.isSome ht hlink)
    exact settled_of_find? hu
  · intro stop x hx
    have hcount := h.typeCount
    exact walk_bound (fun _ _ => rfl) hx (by omega) (by omega)

theorem Grows.describe (h : d.Grows d') (hlinks : d.NoneDangling) {id : TypeId} {t : Descriptor}
    (ht : d.find? id = some t) (budget : Nat) : d'.describe budget t = d.describe budget t := by
  have hx : d.Paired d' (id, t) (id, t) := ⟨rfl, ht, h.find? ht⟩
  rcases (h.mirrors hlinks).describe budget hx with
    ⟨err, he, he'⟩ | ⟨n, y, y', lead, -, hy, htext, htext'⟩
  · exact he'.trans he.symm
  · have hsame : some y.2 = some y'.2 := (h.find? hy.find?).symm.trans hy.find?'
    rw [Option.some.inj hsame] at htext
    exact htext'.trans htext.symm

theorem Grows.typeString (h : d.Grows d') (hlinks : d.NoneDangling) {id : TypeId}
    (hid : (d.find? id).isSome) : Agree Error.kind Eq (d.typeString id) (d'.typeString id) := by
  obtain ⟨t, ht⟩ := Option.isSome_iff_exists.mp hid
  have hbudget : (d.describe d'.typeCount t).mapError Error.kind =
      (d.describe d.typeCount t).mapError Error.kind :=
    describe_bound (x := (id, t)) (fun _ _ => rfl) ht h.typeCount (Nat.le_refl _)
  unfold Dictionary.typeString
  rw [require_eq_ok_iff.mpr ht, require_eq_ok_iff.mpr (h.find? ht)]
  show Agree Error.kind Eq (d.describe d.typeCount t) (d'.describe d'.typeCount t)
  rw [h.describe hlinks ht]
  exact (Agree.refl _).congr_left hbudget

/-- Every question about descriptors that were there before a run of insertions has the same
answer after it, or is refused for the same kind of cause. -/
theorem ask_run (hlinks : d.NoneDangling) {ops : List Operation}
    (hops : ∀ op ∈ ops, op.inserts = true) {q : Query}
    (hq : ∀ id ∈ q.handles, (d.find? id).isSome) :
    ((run perform ops d).2.ask q).mapError Error.kind = (d.ask q).mapError Error.kind := by
  have hgrows := grows_run hops d
  refine ((hgrows.mirrors hlinks).ask ?_ ?_).mapError_eq
  · intro id hid
    obtain ⟨t, ht⟩ := Option.isSome_iff_exists.mp (hq id hid)
    exact settled_of_find? ht
  · rintro id rfl
    exact hgrows.typeString hlinks (hq id List.mem_cons_self)

def loop : Dictionary where
  config := {}
  descriptors := #[
    { name := "a", description := "b", referent? := some ⟨1⟩, body := .plain .reference },
    { name := "b", description := "a", referent? := some ⟨0⟩, body := .plain .reference }]
  schemas := #[]

theorem ask_run_loop :
    loop.NoneDangling ∧
      loop.ask (.typeString ⟨0⟩) = .error (.cyclicTypeGraph "a") ∧
      (run perform [.addUnnamed none (.builtin .real)] loop).2.ask (.typeString ⟨0⟩) =
        .error (.cyclicTypeGraph "b") ∧
      ((run perform [.addUnnamed none (.builtin .real)] loop).2.ask
          (.typeString ⟨0⟩)).mapError Error.kind =
        (loop.ask (.typeString ⟨0⟩)).mapError Error.kind := by
  have hlinks : loop.NoneDangling := by decide +kernel
  refine ⟨hlinks, by cbv, by cbv, ask_run hlinks ?_ ?_⟩
  · decide
  · decide

end Dictionary

end ExpressModel
