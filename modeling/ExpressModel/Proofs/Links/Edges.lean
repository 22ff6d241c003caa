import Mathlib
import ExpressModel.Proofs.Links.Components

/-! # Links as a list of edges

The links of a dictionary are listed in one pass: every descriptor becomes a node, and then every
link of every descriptor that leads to a node becomes an edge, ahead of the edges before it
(`LinkGraph.ofDictionary`).  What leaves a node is read in the order in which it came, what enters
it by handle and then by kind.

Three laws hold of every list of edges: an edge is read from both of its ends, as often as it is
there (`count_refsIn`); what enters a node is in order (`refsIn_ordered`); and the numbers of edges
that leave nodes add up to the number of edges, as do the numbers of those that enter
(`sum_length_refsOut`, `sum_length_refsIn`).

`linksOut`, `linksIn`, `linkCount` and `subtypes` read the same off the dictionary
(`refsOut_ofDictionary` and the lemmas around it), which gives what is on these lists
(`exactLinks`). -/

namespace ExpressModel

/-! ### The order of the ends of links -/

/-- The place of a kind of link among the kinds. -/
def LinkKind.rank : LinkKind → Nat
  | .referent => 0
  | .supertype => 1
  | .choice => 2

theorem LinkKind.eq_of_rank {k k' : LinkKind} (h : k.rank = k'.rank) : k = k' := by
  cases k <;> cases k' <;> first | rfl | exact absurd h (by decide)

/-- The far end of one link may come before that of another: by handle, then by kind. -/
def NotAfter (x y : TypeId × LinkKind) : Prop :=
  x.1.index < y.1.index ∨ x.1 = y.1 ∧ x.2.rank ≤ y.2.rank

instance (x y : TypeId × LinkKind) : Decidable (NotAfter x y) :=
  inferInstanceAs (Decidable (_ ∨ _))

namespace NotAfter

variable {x y z : TypeId × LinkKind}

theorem total (x y : TypeId × LinkKind) : NotAfter x y ∨ NotAfter y x := by
  rcases Nat.lt_trichotomy x.1.index y.1.index with h | h | h
  · exact .inl (.inl h)
  · have hsame : x.1 = y.1 := congrArg TypeId.mk h
    rcases Nat.le_total x.2.rank y.2.rank with hrank | hrank
    · exact .inl (.inr ⟨hsame, hrank⟩)
    · exact .inr (.inr ⟨hsame.symm, hrank⟩)
  · exact .inr (.inl h)

theorem trans (h : NotAfter x y) (h' : NotAfter y z) : NotAfter x z := by
  rcases h with h | ⟨hsame, hrank⟩
  · rcases h' with h' | ⟨hsame', -⟩
    · exact .inl (Nat.lt_trans h h')
    · exact .inl (hsame' ▸ h)
  · rcases h' with h' | ⟨hsame', hrank'⟩
    · exact .inl (hsame ▸ h')
    · exact .inr ⟨hsame.trans hsame', Nat.le_trans hrank hrank'⟩

theorem antisymm (h : NotAfter x y) (h' : NotAfter y x) : x = y := by
  rcases h with h | ⟨hsame, hrank⟩
  · rcases h' with h' | ⟨hsame', -⟩
    · exact absurd h' (Nat.lt_asymm h)
    · exact absurd (hsame' ▸ h) (Nat.lt_irrefl _)
  · rcases h' with h' | ⟨-, hrank'⟩
    · exact absurd (hsame ▸ h') (Nat.lt_irrefl _)
    · exact Prod.ext hsame (LinkKind.eq_of_rank (Nat.le_antisymm hrank hrank'))

end NotAfter

def inOrder (l : List (TypeId × LinkKind)) : List (TypeId × LinkKind) :=
  l.mergeSort fun x y => decide (NotAfter x y)

theorem pairwise_inOrder (l : List (TypeId × LinkKind)) : (inOrder l).Pairwise NotAfter := by
  refine (List.pairwise_mergeSort ?_ ?_ l).imp of_decide_eq_true
  · intro x y z hxy hyz
    exact decide_eq_true ((of_decide_eq_true hxy).trans (of_decide_eq_true hyz))
  · intro x y
    rw [Bool.or_eq_true, decide_eq_true_iff, decide_eq_true_iff]
    exact NotAfter.total x y

theorem inOrder_perm (l : List (TypeId × LinkKind)) : (inOrder l).Perm l :=
  List.mergeSort_perm l _

/-- There is one list of the same ends of links that is in order. -/
theorem inOrder_eq {l l' : List (TypeId × LinkKind)} (hperm : l.Perm l')
    (hordered : l'.Pairwise NotAfter) : inOrder l = l' :=
  List.Perm.eq_of_pairwise (fun _ _ _ _ => NotAfter.antisymm) (pairwise_inOrder l) hordered
    ((inOrder_perm l).trans hperm)

/-! ### Graphs -/

/-- A link with the handle it comes from. -/
structure Edge where
  source : TypeId
  target : TypeId
  kind : LinkKind
  deriving DecidableEq

/-- The edge for a link of a descriptor. -/
def Edge.ofLink (source : TypeId) (link : TypeId × LinkKind) : Edge :=
  ⟨source, link.1, link.2⟩

/-- Nodes, and edges between them of which the newest comes first. -/
structure LinkGraph where
  nodes : List TypeId
  edges : List Edge
  nodup : nodes.Nodup
  joined : ∀ edge ∈ edges, edge.source ∈ nodes ∧ edge.target ∈ nodes

namespace LinkGraph

/-- Adds the edge for a link; a link from or to anything but a node is passed over. -/
def addLink (source : TypeId) (g : LinkGraph) (link : TypeId × LinkKind) : LinkGraph :=
  if h : source ∈ g.nodes ∧ link.1 ∈ g.nodes then
    { g with
      edges := Edge.ofLink source link :: g.edges
      joined := List.forall_mem_cons.mpr ⟨h, g.joined⟩ }
  else g

/-- Adds the edges for the links of a descriptor. -/
def addLinks (d : Dictionary) (g : LinkGraph) (id : TypeId) : LinkGraph :=
  ((d.find? id).elim [] Descriptor.targets).foldl (addLink id) g

/-- The graph of the links of a dictionary. -/
def ofDictionary (d : Dictionary) : LinkGraph :=
  d.typeIds.foldl (addLinks d)
    ⟨d.typeIds, [], Dictionary.nodup_of_ascending d.typeIds_ascending, by simp⟩

/-! ### Reading a graph -/

variable (g : LinkGraph)

def nodeCount : Nat :=
  g.nodes.length

def edgeCount : Nat :=
  g.edges.length

/-- The edges from a node, newest first. -/
def edgesFrom (a : TypeId) : List Edge :=
  g.edges.filter fun edge => edge.source = a

def edgesTo (b : TypeId) : List Edge :=
  g.edges.filter fun edge => edge.target = b

/-- What the edges from a node lead to, oldest first. -/
def refsOut (a : TypeId) : List (TypeId × LinkKind) :=
  ((g.edgesFrom a).map fun edge => (edge.target, edge.kind)).reverse

/-- What the edges to a node come from, by handle and then by kind. -/
def refsIn (b : TypeId) : List (TypeId × LinkKind) :=
  inOrder ((g.edgesTo b).map fun edge => (edge.source, edge.kind))

/-- The entities that the edges to an entity come from as from a subtype. -/
def subtypes (e : EntityId) : List EntityId :=
  ((g.refsIn e.toType).filter (·.2 = .supertype)).map fun link => ⟨link.1⟩

/-! ### Both ends of an edge -/

theorem count_refsOut (a b : TypeId) (k : LinkKind) :
    (g.refsOut a).count (b, k) = g.edges.count ⟨a, b, k⟩ := by
  rw [refsOut, List.count_reverse, edgesFrom, List.count_eq_countP, List.count_eq_countP,
    List.countP_map, List.countP_filter]
  refine List.countP_congr ?_
  rintro ⟨source, target, kind⟩ -
  simp [and_comm]

/-- An edge is read at its target as often as at its source. -/
theorem count_refsIn (a b : TypeId) (k : LinkKind) :
    (g.refsIn b).count (a, k) = (g.refsOut a).count (b, k) := by
  rw [count_refsOut, refsIn, (inOrder_perm _).count_eq, edgesTo, List.count_eq_countP,
    List.count_eq_countP, List.countP_map, List.countP_filter]
  refine List.countP_congr ?_
  rintro ⟨source, target, kind⟩ -
  simp [and_assoc, and_comm, and_left_comm]

theorem refsIn_ordered (b : TypeId) : (g.refsIn b).Pairwise NotAfter :=
  pairwise_inOrder _

/-- An entity is a subtype as often as an edge leads up from it. -/
theorem count_subtypes (e s : EntityId) :
    (g.subtypes e).count s = (g.refsOut s.toType).count (e.toType, .supertype) := by
  rw [← count_refsIn, subtypes, List.count_eq_countP, List.count_eq_countP, List.countP_map,
    List.countP_filter]
  refine List.countP_congr ?_
  rintro ⟨⟨n⟩, kind⟩ -
  rcases s with ⟨⟨m⟩⟩
  simp

theorem subtypes_ascending (e : EntityId) :
    (g.subtypes e).Pairwise fun s s' => s.index ≤ s'.index := by
  refine List.pairwise_map.mpr (((g.refsIn_ordered e.toType).filter _).imp ?_)
  rintro x y (hlt | ⟨hsame, -⟩)
  · exact Nat.le_of_lt hlt
  · exact Nat.le_of_eq (congrArg TypeId.index hsame)

/-! ### Numbers of edges -/

/-- Counted one key after another, every element is counted once. -/
theorem sum_countP_eq_length {α β : Type} [DecidableEq β] (key : α → β) {keys : List β}
    (hkeys : keys.Nodup) {l : List α} (h : ∀ x ∈ l, key x ∈ keys) :
    (keys.map fun b => l.countP fun x => key x = b).sum = l.length := by
  induction l with
  | nil => simp
  | cons x l ih =>
      obtain ⟨hx, hl⟩ := List.forall_mem_cons.mp h
      have hone : (keys.map fun b => if key x = b then 1 else 0).sum = 1 := by
        rw [List.sum_map_eq_nsmul_single (key x) _ fun b hne _ => if_neg hne.symm,
          List.count_eq_one_of_mem hkeys hx, if_pos rfl, one_smul]
      simp only [List.countP_cons, decide_eq_true_eq, List.sum_map_add, ih hl, hone,
        List.length_cons]

theorem length_refsOut (a : TypeId) :
    (g.refsOut a).length = g.edges.countP fun edge => edge.source = a := by
  rw [refsOut, List.length_reverse, List.length_map, edgesFrom, List.countP_eq_length_filter]

theorem length_refsIn (b : TypeId) :
    (g.refsIn b).length = g.edges.countP fun edge => edge.target = b := by
  rw [refsIn, (inOrder_perm _).length_eq, List.length_map, edgesTo, List.countP_eq_length_filter]

theorem sum_length_refsOut : (g.nodes.map fun a => (g.refsOut a).length).sum = g.edgeCount := by
  simp only [length_refsOut]
  exact sum_countP_eq_length Edge.source g.nodup fun edge h => (g.joined edge h).1

theorem sum_length_refsIn : (g.nodes.map fun b => (g.refsIn b).length).sum = g.edgeCount := by
  simp only [length_refsIn]
  exact sum_countP_eq_length Edge.target g.nodup fun edge h => (g.joined edge h).2

/-! ### The graph of a dictionary -/

theorem nodes_addLink (source : TypeId) (link : TypeId × LinkKind) :
    (addLink source g link).nodes = g.nodes := by
  unfold addLink
  split <;> rfl

theorem foldl_addLink {source : TypeId} (links : List (TypeId × LinkKind)) (g : LinkGraph)
    (hsource : source ∈ g.nodes) :
    (links.foldl (addLink source) g).nodes = g.nodes ∧
      (links.foldl (addLink source) g).edges =
        ((links.filter fun link => link.1 ∈ g.nodes).map (Edge.ofLink source)).reverse ++
          g.edges := by
  induction links generalizing g with
  | nil => exact ⟨rfl, rfl⟩
  | cons link links ih =>
      have hnodes := g.nodes_addLink source link
      obtain ⟨hrest, hedges⟩ := ih (addLink source g link) (hnodes ▸ hsource)
      rw [hnodes] at hrest hedges
      refine ⟨hrest, ?_⟩
      rw [List.foldl_cons, hedges, List.filter_cons]
      by_cases hlink : link.1 ∈ g.nodes
      · have hadd : (addLink source g link).edges = Edge.ofLink source link :: g.edges := by
          unfold addLink
          rw [dif_pos ⟨hsource, hlink⟩]
        rw [hadd, if_pos (decide_eq_true hlink), List.map_cons, List.reverse_cons,
          List.append_assoc, List.singleton_append]
      · have hadd : addLink source g link = g := dif_neg fun h => hlink h.2
        rw [hadd, if_neg (by simpa using hlink)]

variable (d : Dictionary)

/-- The edges that a descriptor has among all descriptors are its links. -/
theorem filter_targets (id : TypeId) :
    ((d.find? id).elim [] Descriptor.targets).filter (fun link => link.1 ∈ d.typeIds) =
      d.linksOut id := by
  unfold Dictionary.linksOut
  simp only [Dictionary.mem_typeIds]
  cases d.find? id with
  | none => rfl
  | some t => simp

theorem foldl_addLinks {ids : List TypeId} (g : LinkGraph) (hnodes : g.nodes = d.typeIds)
    (hids : ∀ id ∈ ids, id ∈ d.typeIds) :
    (ids.foldl (addLinks d) g).nodes = d.typeIds ∧
      (ids.foldl (addLinks d) g).edges.reverse =
        g.edges.reverse ++ ids.flatMap fun id => (d.linksOut id).map (Edge.ofLink id) := by
  induction ids generalizing g with
  | nil => exact ⟨hnodes, (List.append_nil _).symm⟩
  | cons id ids ih =>
      obtain ⟨hid, hids⟩ := List.forall_mem_cons.mp hids
      obtain ⟨hsame, hedges⟩ := foldl_addLink ((d.find? id).elim [] Descriptor.targets) g
        (hnodes ▸ hid)
      obtain ⟨hrest, hreverse⟩ := ih (addLinks d g id) (hsame.trans hnodes) hids
      refine ⟨hrest, ?_⟩
      rw [List.foldl_cons, hreverse, addLinks, hedges, hnodes, filter_targets, List.reverse_append,
        List.reverse_reverse, List.append_assoc, List.flatMap_cons]

theorem nodes_ofDictionary : (ofDictionary d).nodes = d.typeIds :=
  (foldl_addLinks d _ rfl fun _ h => h).1

/-- The edges, oldest first, are the links of one descriptor after another. -/
theorem reverse_edges_ofDictionary :
    (ofDictionary d).edges.reverse =
      d.typeIds.flatMap fun id => (d.linksOut id).map (Edge.ofLink id) :=
  (foldl_addLinks d _ rfl fun _ h => h).2

/-- Where a function has something for one element of a list alone, it has that for the list. -/
theorem flatMap_eq_of_unique {α β : Type} {f : α → List β} {a : α} {l : List α} (hl : l.Nodup)
    (hf : ∀ b ∈ l, b ≠ a → f b = []) (ha : a ∉ l → f a = []) : l.flatMap f = f a := by
  induction l with
  | nil => exact (ha List.not_mem_nil).symm
  | cons b l ih =>
      obtain ⟨hb, hl⟩ := List.nodup_cons.mp hl
      rw [List.flatMap_cons]
      by_cases hba : b = a
      · have hrest : l.flatMap f = [] := by
          refine List.flatMap_eq_nil_iff.mpr fun c hc => ?_
          refine hf c (List.mem_cons_of_mem b hc) ?_
          rintro rfl
          exact hb (hba ▸ hc)
        rw [hrest, List.append_nil, hba]
      · rw [hf b List.mem_cons_self hba, List.nil_append]
        refine ih hl (fun c hc => hf c (List.mem_cons_of_mem b hc)) fun hnot => ha ?_
        rw [List.mem_cons]
        rintro (rfl | hmem)
        · exact hba rfl
        · exact hnot hmem

theorem refsOut_ofDictionary (a : TypeId) : (ofDictionary d).refsOut a = d.linksOut a := by
  have hnodup := Dictionary.nodup_of_ascending d.typeIds_ascending
  rw [refsOut, edgesFrom, ← List.map_reverse, ← List.filter_reverse, reverse_edges_ofDictionary,
    List.filter_flatMap, List.map_flatMap, flatMap_eq_of_unique (a := a) hnodup]
  · simp [Edge.ofLink, List.filter_map, Function.comp_def]
  · intro b _ hba
    rw [List.map_eq_nil_iff, List.filter_eq_nil_iff]
    intro edge hedge
    obtain ⟨link, -, rfl⟩ := List.mem_map.mp hedge
    rw [decide_eq_true_eq]
    exact hba
  · intro ha
    have hnone : d.linksOut a = [] := by
      unfold Dictionary.linksOut
      rw [Option.not_isSome_iff_eq_none.mp (mt Dictionary.mem_typeIds.mpr ha)]
    rw [hnone]
    rfl

theorem pairwise_targets (t : Descriptor) :
    t.targets.Pairwise fun x y => x.2.rank ≤ y.2.rank := by
  have hkind : ∀ {α : Type} (f : α → TypeId) (kind : LinkKind) (l : List α),
      (l.map fun a => (f a, kind)).Pairwise fun x y => x.2.rank ≤ y.2.rank := by
    intro α f kind l
    exact List.pairwise_map.mpr (List.pairwise_of_forall fun _ _ => Nat.le_refl _)
  refine List.pairwise_append.mpr ⟨List.pairwise_append.mpr ⟨hkind _ _ _, hkind _ _ _, ?_⟩,
    hkind _ _ _, ?_⟩
  · intro x hx y hy
    obtain ⟨_, -, rfl⟩ := List.mem_map.mp hx
    obtain ⟨_, -, rfl⟩ := List.mem_map.mp hy
    exact Nat.zero_le _
  · intro x hx y hy
    obtain ⟨_, -, rfl⟩ := List.mem_map.mp hy
    rcases List.mem_append.mp hx with hx | hx
    · obtain ⟨_, -, rfl⟩ := List.mem_map.mp hx
      exact Nat.zero_le _
    · obtain ⟨_, -, rfl⟩ := List.mem_map.mp hx
      exact Nat.le_succ 1

theorem linksIn_ordered (b : TypeId) : (d.linksIn b).Pairwise NotAfter := by
  unfold Dictionary.linksIn
  split
  · refine List.pairwise_flatMap.mpr ⟨?_, ?_⟩
    · intro a _
      have hkinds : (d.linksOut a).Pairwise fun x y => x.2.rank ≤ y.2.rank := by
        unfold Dictionary.linksOut
        split
        · exact .nil
        · exact (pairwise_targets _).filter _
      exact List.pairwise_map.mpr ((hkinds.filter _).imp fun h => .inr ⟨rfl, h⟩)
    · refine d.typeIds_ascending.imp ?_
      intro a a' hlt x hx y hy
      obtain ⟨_, -, rfl⟩ := List.mem_map.mp hx
      obtain ⟨_, -, rfl⟩ := List.mem_map.mp hy
      exact .inl hlt
  · exact .nil

theorem refsIn_ofDictionary (b : TypeId) : (ofDictionary d).refsIn b = d.linksIn b := by
  refine inOrder_eq ?_ (linksIn_ordered d b)
  have hends : (((ofDictionary d).edges.reverse.filter fun edge => edge.target = b).map
      fun edge => (edge.source, edge.kind)) = d.linksIn b := by
    rw [reverse_edges_ofDictionary, List.filter_flatMap, List.map_flatMap]
    unfold Dictionary.linksIn
    split
    · simp only [List.filter_map, List.map_map]
      rfl
    · next hnone =>
      refine List.flatMap_eq_nil_iff.mpr fun a _ => ?_
      rw [List.map_eq_nil_iff, List.filter_eq_nil_iff]
      intro edge hedge
      obtain ⟨link, hlink, rfl⟩ := List.mem_map.mp hedge
      rw [decide_eq_true_eq]
      rintro rfl
      exact hnone ((d.mem_linksOut_iff.mp hlink).1)
  rw [← hends]
  exact ((List.reverse_perm _).symm.filter _).map _

theorem nodeCount_ofDictionary : (ofDictionary d).nodeCount = d.typeCount := by
  rw [nodeCount, nodes_ofDictionary, Dictionary.length_typeIds]

theorem edgeCount_ofDictionary : (ofDictionary d).edgeCount = d.linkCount := by
  rw [edgeCount, ← List.length_reverse, reverse_edges_ofDictionary, Dictionary.linkCount,
    List.length_flatMap, List.length_flatMap]
  simp

theorem subtypes_ofDictionary (e : EntityId) : (ofDictionary d).subtypes e = d.subtypes e := by
  rw [subtypes, refsIn_ofDictionary, Dictionary.subtypes]

end LinkGraph

/-! ### Exactness -/

namespace Dictionary

variable {d : Dictionary}

/-- What is on the lists of links of a dictionary. -/
structure ExactLinks (d : Dictionary) : Prop where
  /-- The links from a descriptor are its referent, its live supertypes and its live choices, in
  this order; what denotes nothing is left out and what is repeated is repeated. -/
  linksOut_eq : ∀ {a t}, d.find? a = some t → d.linksOut a =
    (d.follow? t).toList.map (fun referent => (referent.1, .referent)) ++
      (t.supertypes.filter fun e => (d.find? e.toType).isSome).map (·.toType, .supertype) ++
      (t.choices.filter fun c => (d.find? c).isSome).map (·, .choice)
  /-- Nothing leads from a handle that denotes nothing. -/
  linksOut_eq_nil : ∀ {a}, d.find? a = none → d.linksOut a = []
  /-- A link is listed at its far end as often as at its near end. -/
  count_linksIn : ∀ a b kind, (d.linksIn b).count (a, kind) = (d.linksOut a).count (b, kind)
  /-- The links to a descriptor come by handle and then by kind. -/
  linksIn_ordered : ∀ b, (d.linksIn b).Pairwise NotAfter
  sum_length_linksOut : (d.typeIds.map fun a => (d.linksOut a).length).sum = d.linkCount
  sum_length_linksIn : (d.typeIds.map fun b => (d.linksIn b).length).sum = d.linkCount
  /-- The subtypes of an entity come by handle. -/
  subtypes_ascending : ∀ e, (d.subtypes e).Pairwise fun s s' => s.index ≤ s'.index
  /-- They are the descriptors that have it for a live supertype, each as often as it has. -/
  count_subtypes : ∀ {e}, (d.find? e.toType).isSome → ∀ s, (d.subtypes e).count s =
    ((d.find? s.toType).elim [] Descriptor.supertypes).count e
  /-- A handle that denotes nothing has no subtypes. -/
  subtypes_eq_nil : ∀ {e}, d.find? e.toType = none → d.subtypes e = []

theorem linksOut_of_find? {a : TypeId} {t : Descriptor} (h : d.find? a = some t) :
    d.linksOut a =
      (d.follow? t).toList.map (fun referent => (referent.1, .referent)) ++
        (t.supertypes.filter fun e => (d.find? e.toType).isSome).map (·.toType, .supertype) ++
        (t.choices.filter fun c => (d.find? c).isSome).map (·, .choice) := by
  have hreferent : (t.referent?.toList.map fun r => (r, LinkKind.referent)).filter
      (fun link => (d.find? link.1).isSome) =
        (d.follow? t).toList.map fun referent => (referent.1, .referent) := by
    unfold follow?
    cases t.referent? with
    | none => rfl
    | some r => cases hr : d.find? r <;> simp [hr]
  unfold linksOut
  rw [h]
  dsimp only
  rw [Descriptor.targets, List.filter_append, List.filter_append, hreferent, List.filter_map,
    List.filter_map]
  rfl

theorem count_supertypes_linksOut {e s : EntityId} (he : (d.find? e.toType).isSome) :
    (d.linksOut s.toType).count (e.toType, .supertype) =
      ((d.find? s.toType).elim [] Descriptor.supertypes).count e := by
  cases hs : d.find? s.toType with
  | none =>
      have hnone : d.linksOut s.toType = [] := by
        unfold linksOut
        rw [hs]
      rw [hnone]
      rfl
  | some t =>
      have hinj : Function.Injective fun e : EntityId => (e.toType, LinkKind.supertype) := by
        rintro ⟨a⟩ ⟨b⟩ h
        exact congrArg EntityId.mk (Prod.mk.inj h).1
      have hreferent : (e.toType, LinkKind.supertype) ∉
          (d.follow? t).toList.map fun referent => (referent.1, LinkKind.referent) := by
        simp
      have hchoice : (e.toType, LinkKind.supertype) ∉
          (t.choices.filter fun c => (d.find? c).isSome).map (·, LinkKind.choice) := by
        simp
      have hsupertype : ((t.supertypes.filter fun e => (d.find? e.toType).isSome).map
          (·.toType, LinkKind.supertype)).count (e.toType, .supertype) = t.supertypes.count e := by
        rw [List.count_map_of_injective _ _ hinj,
          List.count_filter (p := fun e : EntityId => (d.find? e.toType).isSome) he]
      rw [linksOut_of_find? hs, List.count_append, List.count_append,
        List.count_eq_zero_of_not_mem hreferent, List.count_eq_zero_of_not_mem hchoice, hsupertype,
        Nat.zero_add, Nat.add_zero]
      rfl

theorem exactLinks (d : Dictionary) : d.ExactLinks where
  linksOut_eq := linksOut_of_find?
  linksOut_eq_nil := by
    intro a ha
    unfold linksOut
    rw [ha]
  count_linksIn a b kind := by
    rw [← LinkGraph.refsIn_ofDictionary, ← LinkGraph.refsOut_ofDictionary]
    exact LinkGraph.count_refsIn _ a b kind
  linksIn_ordered := LinkGraph.linksIn_ordered d
  sum_length_linksOut := by
    have h := (LinkGraph.ofDictionary d).sum_length_refsOut
    simpa only [LinkGraph.nodes_ofDictionary, LinkGraph.refsOut_ofDictionary,
      LinkGraph.edgeCount_ofDictionary] using h
  sum_length_linksIn := by
    have h := (LinkGraph.ofDictionary d).sum_length_refsIn
    simpa only [LinkGraph.nodes_ofDictionary, LinkGraph.refsIn_ofDictionary,
      LinkGraph.edgeCount_ofDictionary] using h
  subtypes_ascending e := by
    rw [← LinkGraph.subtypes_ofDictionary]
    exact LinkGraph.subtypes_ascending _ e
  count_subtypes := by
    intro e he s
    rw [← LinkGraph.subtypes_ofDictionary, LinkGraph.count_subtypes,
      LinkGraph.refsOut_ofDictionary, count_supertypes_linksOut he]
  subtypes_eq_nil := by
    intro e he
    unfold subtypes linksIn
    rw [he]
    rfl

end Dictionary

end ExpressModel
