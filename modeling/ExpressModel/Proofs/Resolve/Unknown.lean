import ExpressModel.Declaration.SchemaText
import ExpressModel.Proofs.Resolve.Query

/-! # Handles that denote nothing

A question about a handle that denotes nothing is refused, whatever else is asked: the descriptor
is required before anything else is looked at, as one lemma for each kind of search says.  So are
the qualified name and the declarations of such a handle (`unknown_refused`).

There is one exception.  Whether an entity is a kind of another is answered before the entity is
required when the two handles are the same. -/

namespace ExpressModel

/-- The handle that a question is asked of. -/
def Query.root : Query → TypeId
  | .unaliased id | .unaliasedKind id | .base id | .baseKind id | .isAggregate id | .element id
  | .elementKind id | .isA id _ | .isANamed id _ | .typeString id | .canBe id _
  | .canBeNamed id _ | .canBeSet id _ _ => id
  | .entityIsA this _ => this.toType

/-- Does the question ask whether an entity is a kind of itself? -/
def Query.comparesSelf : Query → Bool
  | .entityIsA this other => this = other
  | _ => false

/-! ### Refusals -/

/-- The answer is the refusal of a handle that denotes nothing. -/
def Refused {α : Type} (id : TypeId) (answer : Except Error α) : Prop :=
  answer = .error (.unknownType id)

namespace Refused

variable {α β : Type} {id : TypeId} {answer : Except Error α}

theorem map (h : Refused id answer) (f : α → β) : Refused id (answer.map f) :=
  congrArg (Except.map f) h

theorem bind (h : Refused id answer) (next : α → Except Error β) :
    Refused id (answer >>= next) :=
  congrArg (· >>= next) h

end Refused

namespace Dictionary

variable {d : Dictionary} {id : TypeId}

theorem refused_require (h : d.find? id = none) : Refused id (d.require id) := by
  unfold require Refused
  rw [h]

theorem refused_requireEntity (h : d.find? id = none) : Refused id (d.requireEntity ⟨id⟩) := by
  rw [requireEntity_eq]
  exact (refused_require h).bind _

/-! ### Questions -/

theorem refused_walkFrom (h : d.find? id = none) (stop : Descriptor → Bool) :
    Refused id (d.walkFrom stop id) :=
  (refused_require h).bind _

theorem refused_unaliasedKind (h : d.find? id = none) : Refused id (d.unaliasedKind id) :=
  (refused_walkFrom h _).map _

theorem refused_element? (h : d.find? id = none) : Refused id (d.element? id) :=
  (refused_walkFrom h _).bind _

theorem refused_isA? (h : d.find? id = none) (other : TypeId) : Refused id (d.isA? id other) :=
  (refused_require h).bind _

/-- Two entity handles are compared before the first is required. -/
theorem refused_entityIsA? (h : d.find? id = none) {other : EntityId} (hother : ⟨id⟩ ≠ other) :
    Refused id (d.entityIsA? ⟨id⟩ other) := by
  have hbelow : Refused id (d.isBelow other [] ⟨id⟩) := by
    rw [isBelow_eq, if_neg hother]
    exact (refused_requireEntity h).bind _
  exact hbelow.map _

theorem entityIsA?_self (d : Dictionary) (e : EntityId) : d.entityIsA? e e = .ok (some e) := by
  unfold entityIsA?
  rw [isBelow_eq, if_pos rfl]
  rfl

/-- The searches of all three selections start by requiring the type. -/
theorem refused_admitted? (h : d.find? id = none) (q : Selection) (path : List TypeId) :
    Refused id (d.admitted? q path id) := by
  rw [admitted?_eq]
  exact (refused_require h).bind _

theorem refused_ask {q : Query} (h : d.find? q.root = none) (hself : q.comparesSelf = false) :
    Refused q.root (d.ask q) := by
  cases q with
  | unaliased id => exact ((refused_walkFrom h _).map _).map _
  | unaliasedKind id => exact (refused_unaliasedKind h).map _
  | base id => exact ((refused_walkFrom h _).map _).map _
  | baseKind id => exact ((refused_walkFrom h _).map _).map _
  | isAggregate id => exact ((refused_unaliasedKind h).map _).map _
  | element id => exact (refused_element? h).map _
  | elementKind id => exact ((refused_element? h).bind _).map _
  | isA this other => exact (refused_isA? h other).map _
  | isANamed this name => exact ((refused_walkFrom h _).map _).map _
  | entityIsA this other =>
      have hother : this ≠ other := of_decide_eq_false hself
      exact (refused_entityIsA? h hother).map _
  | typeString id => exact ((refused_require h).bind _).map _
  | canBe this other => exact (refused_admitted? h _ []).map _
  | canBeNamed this name => exact (refused_admitted? h _ []).map _
  | canBeSet this name schema? => exact (refused_admitted? h _ []).map _

theorem ask_of_comparesSelf {q : Query} (hself : q.comparesSelf = true) (d : Dictionary) :
    d.ask q = .ok (.entity? (some ⟨q.root⟩)) := by
  cases q with
  | entityIsA this other =>
      obtain rfl : this = other := of_decide_eq_true hself
      exact congrArg (Except.map Answer.entity?) (entityIsA?_self d this)
  | _ => cases hself

/-- What is asked of a handle that denotes nothing is refused with that handle, and so are its
qualified name and its declarations; only that it is a kind of itself is affirmed of it. -/
theorem unknown_refused (h : d.find? id = none) :
    (∀ q : Query, q.root = id → d.ask q =
      if q.comparesSelf then .ok (.entity? (some ⟨id⟩)) else .error (.unknownType id)) ∧
    d.qualifiedName ⟨id⟩ = .error (.unknownType id) ∧
    d.typeText id = .error (.unknownType id) ∧
    d.entityText ⟨id⟩ = .error (.unknownType id) := by
  refine ⟨?_, (refused_requireEntity h).bind _, (refused_require h).bind _,
    (refused_requireEntity h).bind _⟩
  rintro q rfl
  cases hself : q.comparesSelf with
  | true => exact ask_of_comparesSelf hself d
  | false => exact refused_ask h hself

/-- Of a new dictionary, a handle that it has not issued can be asked all the same. -/
theorem unknown_refused_new :
    (new {}).find? ⟨99⟩ = none ∧
      (new {}).ask (.isA ⟨99⟩ ⟨99⟩) = .error (.unknownType ⟨99⟩) ∧
      (new {}).ask (.canBe ⟨99⟩ ⟨99⟩) = .error (.unknownType ⟨99⟩) ∧
      (new {}).entityText ⟨⟨99⟩⟩ = .error (.unknownType ⟨99⟩) := by
  have hnone : (new {}).find? ⟨99⟩ = none := rfl
  obtain ⟨hask, -, -, hentity⟩ := unknown_refused hnone
  exact ⟨hnone, hask (.isA ⟨99⟩ ⟨99⟩) rfl, hask (.canBe ⟨99⟩ ⟨99⟩) rfl, hentity⟩

/-- That it is a kind of itself is affirmed. -/
theorem entityIsA_unknown_self :
    (new {}).find? ⟨99⟩ = none ∧
      (new {}).ask (.entityIsA ⟨⟨99⟩⟩ ⟨⟨99⟩⟩) = .ok (.entity? (some ⟨⟨99⟩⟩)) := by
  have hnone : (new {}).find? ⟨99⟩ = none := rfl
  exact ⟨hnone, ask_of_comparesSelf rfl (new {})⟩

end Dictionary

end ExpressModel
