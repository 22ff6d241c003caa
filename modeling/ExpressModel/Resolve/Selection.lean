import ExpressModel.Resolve.Membership

/-! # Selection

A select type admits what one of its choices admits, and choices may be select types in turn.
The three questions that are asked of a select type (may it hold this type, may it hold a type of
this name, may a value be tagged with this name) differ only in what they ask of the types they
come to, which a `Selection` states; the search through nested choices is one (`admitted?`).

The answer for a select type is the first choice through which the question is answered; for any
other type it is what the question makes of that type. -/

namespace ExpressModel

/-- What a search through choices asks of the types it comes to. -/
structure Selection where
  /-- What is made of a type that is no select type. -/
  ofLeaf : TypeId → Descriptor → Except Error (Option TypeId)
  /-- Does a select type answer the question itself, before its choices do? -/
  ofSelect : TypeId → Descriptor → Bool
  /-- Does a choice answer the question by itself, one way or the other, without a look at what
  is behind it? -/
  ofChoice : TypeId → Descriptor → Except Error (Option Bool)

namespace Dictionary

variable (d : Dictionary)

/-! ### The search -/

mutual

/-- What answers the question for a type.  The path holds the select types the search is inside
of. -/
def admitted? (q : Selection) (path : List TypeId) (this : TypeId) :
    Except Error (Option TypeId) :=
  match _h : d.require this with
  | .error e => .error e
  | .ok t =>
    match t.select? with
    | none => q.ofLeaf this t
    | some _ =>
      if q.ofSelect this t then .ok (some this)
      else if _hp : this ∈ path then .error t.cyclic
      else firstAdmitting? q (this :: path) t.choices
termination_by (d.offPath path, 0)
decreasing_by exact Prod.Lex.left _ _ (offPath_cons_lt (require_eq_ok_iff.mp _h) _hp)

/-- The first choice that answers the question; the choices are tried in order. -/
def firstAdmitting? (q : Selection) (path : List TypeId) :
    List TypeId → Except Error (Option TypeId)
  | [] => .ok none
  | choice :: rest =>
    match d.require choice with
    | .error e => .error e
    | .ok t =>
      match q.ofChoice choice t with
      | .error e => .error e
      | .ok (some true) => .ok (some choice)
      | .ok (some false) => firstAdmitting? q path rest
      | .ok none =>
        match admitted? q path choice with
        | .error e => .error e
        | .ok (some _) => .ok (some choice)
        | .ok none => firstAdmitting? q path rest
termination_by choices => (d.offPath path, choices.length + 1)
decreasing_by
  · exact Prod.Lex.right _ (by simp)
  · exact Prod.Lex.right _ (by simp)
  · exact Prod.Lex.right _ (by simp)

end

theorem admitted?_eq (q : Selection) (path : List TypeId) (this : TypeId) :
    d.admitted? q path this =
      d.require this >>= fun t =>
        match t.select? with
        | none => q.ofLeaf this t
        | some _ =>
          if q.ofSelect this t then .ok (some this)
          else if this ∈ path then .error t.cyclic
          else d.firstAdmitting? q (this :: path) t.choices := by
  rw [admitted?]
  split <;> next h => rw [h]; rfl

@[simp] theorem firstAdmitting?_nil (q : Selection) (path : List TypeId) :
    d.firstAdmitting? q path [] = .ok none := by
  rw [firstAdmitting?]

theorem firstAdmitting?_cons (q : Selection) (path : List TypeId) (choice : TypeId)
    (rest : List TypeId) :
    d.firstAdmitting? q path (choice :: rest) =
      d.require choice >>= fun t => q.ofChoice choice t >>= fun
        | some true => .ok (some choice)
        | some false => d.firstAdmitting? q path rest
        | none => d.admitted? q path choice >>= fun
          | some _ => .ok (some choice)
          | none => d.firstAdmitting? q path rest := by
  rw [firstAdmitting?]
  split
  · next h => rw [h]; rfl
  · next t h =>
    rw [h]
    split
    · next hc => simp only [hc, bind, Except.bind]
    · next hc => simp only [hc, bind, Except.bind]
    · next hc => simp only [hc, bind, Except.bind]
    · next hc =>
      simp only [hc, bind, Except.bind]
      split <;> next ha => rw [ha]

/-! ### The questions -/

/-- May it hold this type?  A select type holds itself, any other type what it is. -/
def holding (other : TypeId) : Selection where
  ofLeaf this _ := d.isA? this other
  ofSelect this _ := this = other
  ofChoice _ _ := .ok none

/-- May it hold a type of this name?  Any type on the way may have it. -/
def holdingNamed (name : String) : Selection where
  ofLeaf this _ := d.isANamed? this name
  ofSelect _ t := t.ownName name
  ofChoice _ _ := .ok none

/-- May a value be tagged with this name?  A tag is the current name of a type that is no select
type; an alias of a select type is a tag too, and what is behind it is not. -/
def taggedBy (name : String) (schema? : Option String) : Selection where
  ofLeaf this t := .ok (if t.currentName name schema? then some this else none)
  ofSelect _ _ := false
  ofChoice choice t :=
    if t.kind = .reference then
      (d.unaliasedKind choice).map fun kind =>
        if kind = .select then some (t.currentName name schema?) else none
    else .ok none

def canBe? (this other : TypeId) : Except Error (Option TypeId) :=
  d.admitted? (d.holding other) [] this

/-- What lets a type hold one of the name. -/
def canBeNamed? (this : TypeId) (name : String) : Except Error (Option TypeId) :=
  d.admitted? (d.holdingNamed name) [] this

/-- What lets a value of a type be tagged with the name. -/
def canBeSet? (this : TypeId) (name : String) (schema? : Option String) :
    Except Error (Option TypeId) :=
  d.admitted? (d.taggedBy name schema?) [] this

end Dictionary

end ExpressModel
